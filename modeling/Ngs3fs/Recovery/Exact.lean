import Ngs3fs.Recovery.Upload

/-!
# The parts of a recovered write

`recover_cached_write` and `OwnerCacheRecovery` with the bytes that are uploaded and any way of the
service to cut the list of parts into pages; the network loses nothing here. A recovery has the
bytes up to `written_end` and the upload ID of the metadata. It asks for the parts the service has,
refuses them if one does not fit, uploads the others, and completes the upload. The background
thread uploads one part after the other; the owner reactor has several in flight, which arrive in
any order. -/

namespace Ngs3fs.Recovery
open Persist Program Bytes List Nat Option

structure Stored where
  etag : Text
  data : List UInt8
  etag_ne_nil : etag ≠ []

inductive Sent where
  | put (data : List UInt8)
  | create
  | part (number : Nat) (data : List UInt8)
  | complete (parts : List (Nat × Text))
  deriving DecidableEq

/-- The parts of the upload, the object, and the requests it has carried out. -/
structure Remote where
  parts : Nat → Option Stored
  object : Option (List UInt8)
  sent : List Sent

structure PartEtags where
  etag : Nat → List UInt8 → Text
  ne_nil : ∀ number data, etag number data ≠ []

def listed (parts : Nat → Option Stored) (marker last : Nat) : List Part :=
  (range' (marker + 1) (last - marker)).filterMap fun number =>
    (parts number).map fun part => ⟨number, part.data.length, part.etag⟩

/-- A page that is not the last one has the parts up to the next marker. -/
structure Pager where
  page : (Nat → Option Stored) → Nat → List Part × Option Nat
  last : ∀ parts marker, (page parts marker).2 = none →
    (page parts marker).1 = listed parts marker kMaximumMultipartParts
  next : ∀ parts marker marker', (page parts marker).2 = some marker' →
    marker < marker' ∧ marker' ≤ kMaximumMultipartParts ∧
      (page parts marker).1 = listed parts marker marker'

abbrev Transfer := ExceptT Failure (StateM Remote)

/-- `PutObject`. -/
def sendPut (data : List UInt8) : Transfer Unit := fun r =>
  (.ok (), { r with object := some data, sent := r.sent ++ [.put data] })

/-- `CreateMultipartUpload`. -/
def sendCreate : Transfer Unit := fun r =>
  (.ok (), { r with parts := fun _ => none, sent := r.sent ++ [.create] })

/-- `ListParts`. -/
def sendList (pager : Pager) (marker : Nat) : Transfer (List Part × Option Nat) := fun r =>
  (.ok (pager.page r.parts marker), r)

def Remote.store (r : Remote) (etags : PartEtags) (number : Nat) (data : List UInt8) : Remote :=
  { r with
    parts := Function.update r.parts number
      (some ⟨etags.etag number data, data, etags.ne_nil number data⟩)
    sent := r.sent ++ [.part number data] }

/-- `UploadPart`. -/
def sendPart (etags : PartEtags) (number : Nat) (data : List UInt8) : Transfer Text := fun r =>
  if number = 0 ∨ kMaximumMultipartParts < number then (.error (.status 400), r)
  else (.ok (etags.etag number data), r.store etags number data)

def Remote.assemble (r : Remote) : List (Nat × Text) → Option (List UInt8)
  | [] => some []
  | (number, etag) :: rest =>
    match r.parts number with
    | none => none
    | some part => if part.etag = etag then (part.data ++ ·) <$> r.assemble rest else none

/-- A list without parts does not satisfy it. -/
def sendComplete (parts : List (Nat × Text)) : Transfer Unit := fun r =>
  if parts = [] then (.error (.status 400), r)
  else
    match r.assemble parts with
    | none => (.error (.status 400), r)
    | some data =>
      (.ok (), { parts := fun _ => none, object := some data, sent := r.sent ++ [.complete parts] })

variable (c : WriterKey) (pager : Pager) (etags : PartEtags)

def partData (data : List UInt8) (i : Nat) : List UInt8 :=
  slice (i * c.config.uploadPartSize) (partLength c data.length i) data

def listPages : (pages marker : Nat) → Transfer (List Part)
  | 0, _ => throw .invalidParts
  | pages + 1, marker => do
    let (parts, next) ← sendList pager marker
    if !orderedAfter marker parts then throw .invalidParts
    else
      match next with
      | none => pure parts
      | some next =>
        if next ≤ marker ∨ kMaximumMultipartParts < next then throw .invalidParts
        else do
          let rest ← listPages pages next
          pure (parts ++ rest)

/-- The loop of `recover_cached_write` over the listed parts. -/
def placeParts (size : Nat) : List Part → List Text → Except Failure (List Text)
  | [], placed => .ok placed
  | part :: parts, placed =>
    if placed.length < part.number then .error .excessParts
    else if part.size ≠ partLength c size (part.number - 1) ∨ part.etag = [] then
      .error .invalidParts
    else placeParts size parts (placed.set (part.number - 1) part.etag)

def uploadParts (data : List UInt8) : List Nat → List Text → Transfer (List Text)
  | [], placed => pure placed
  | i :: rest, placed =>
    if placed.getD i [] = [] then do
      let etag ← sendPart etags (i + 1) (partData c data i)
      uploadParts data rest (placed.set i etag)
    else uploadParts data rest placed

/-- `complete_body`. -/
def completeBody (placed : List Text) : List (Nat × Text) :=
  (range placed.length).map fun i => (i + 1, placed.getD i [])

def single (uploadId : Text) (data : List UInt8) : Bool :=
  decide (data.length ≤ c.config.uploadPartSize) && uploadId.isEmpty

def startUpload (uploadId : Text) : Transfer Unit :=
  if uploadId = [] then sendCreate else pure ()

/-- Up to the commit. -/
def recoverWrite (uploadId : Text) (data : List UInt8) : Transfer Unit :=
  if single c uploadId data then sendPut data
  else do
    startUpload uploadId
    let remote ← listPages pager (kMaximumMultipartParts + 1) 0
    -- the number of parts wraps around, and there is no memory for so many
    if data = [] then throw .emptyMultipart
    else
      let count := partCount c data.length
      let placed ← liftM (placeParts c data.length remote (replicate count []))
      let placed ← uploadParts c etags data (range count) placed
      sendComplete (completeBody placed)

/-- A page of `OwnerCacheRecovery::listed`, with the number of the last part. -/
def placePage (size : Nat) : Nat → List Part → List Text → Except Failure (Nat × List Text)
  | last, [], placed => .ok (last, placed)
  | last, part :: parts, placed =>
    if part.number ≤ last ∨ placed.length < part.number then .error .invalidParts
    else if part.size ≠ partLength c size (part.number - 1) ∨ part.etag = [] then
      .error .invalidParts
    else placePage size part.number parts (placed.set (part.number - 1) part.etag)

/-- `OwnerCacheRecovery::list` and `listed`. -/
def ownerPages (size : Nat) : (pages marker : Nat) → List Text → Transfer (List Text)
  | 0, _, _ => throw .invalidParts
  | pages + 1, marker, placed => do
    let (parts, next) ← sendList pager marker
    let (last, placed) ← liftM (placePage c size marker parts placed)
    match next with
    | none => pure placed
    | some next =>
      if next ≤ marker ∨ kMaximumMultipartParts < next ∨ next < last then throw .invalidParts
      else ownerPages size pages next placed

def missing (placed : List Text) : List Nat :=
  (range placed.length).filter fun i => placed.getD i [] = []

/-- `OwnerCacheRecovery::create` and `list`. -/
def ownerParts (uploadId : Text) (size : Nat) (none : List Text) : Transfer (List Text) :=
  if uploadId = [] then do
    sendCreate
    pure none
  else ownerPages c pager size (kMaximumMultipartParts + 1) 0 none

/-- The parts that are in flight together arrive in the order `arrivals`. -/
def ownerRecoverWrite (arrivals : List Nat → List Nat) (uploadId : Text) (data : List UInt8) :
    Transfer Unit :=
  if single c uploadId data then sendPut data
  else
    let count := partCount c data.length
    if data = [] then throw .emptyMultipart
    else if kMaximumMultipartParts < count then throw .excessParts
    else do
      let placed ← ownerParts c pager uploadId data.length (replicate count [])
      let placed ← uploadParts c etags data (arrivals (missing placed)) placed
      sendComplete (completeBody placed)

def wholeParts (size : Nat) : Nat := (size + c.config.uploadPartSize - 1) / c.config.uploadPartSize

def present (uploadId : Text) (r : Remote) : Nat → Option Stored :=
  if uploadId = [] then fun _ => none else r.parts

def PartsFit (size : Nat) (parts : Nat → Option Stored) : Prop :=
  ∀ number part, 0 < number → number ≤ kMaximumMultipartParts → parts number = some part →
    number ≤ wholeParts c size ∧ part.data.length = partLength c size (number - 1)

/-- The one that the service has, or the one that the upload gives. -/
def finalEtag (parts : Nat → Option Stored) (data : List UInt8) (i : Nat) : Text :=
  match parts (i + 1) with
  | some part => part.etag
  | none => etags.etag (i + 1) (partData c data i)

def partList (parts : Nat → Option Stored) (data : List UInt8) : List (Nat × Text) :=
  (range (wholeParts c data.length)).map fun i => (i + 1, finalEtag c etags parts data i)

/-- The parts that are missing, each once, and the completion with the parts `1` to `n`. -/
def Requests (uploadId : Text) (data : List UInt8) (parts : Nat → Option Stored)
    (sent : List Sent) : Prop :=
  if single c uploadId data then sent = [.put data]
  else ∃ order : List Nat,
    order.Perm ((range (wholeParts c data.length)).filter fun i => (parts (i + 1)).isNone) ∧
    sent = (if uploadId = [] then [.create] else []) ++
      order.map (fun i => .part (i + 1) (partData c data i)) ++
      [.complete (partList c etags parts data)]

/-- If the parts fit, it makes the object from the local bytes with these requests; if they do not,
it changes nothing. -/
structure Exact (uploadId : Text) (data : List UInt8) (before : Remote)
    (out : Except Failure Unit × Remote) : Prop where
  completes : PartsFit c data.length (present uploadId before) → out.1 = .ok () ∧
    out.2.object = some data ∧
    ∃ sent, out.2.sent = before.sent ++ sent ∧
      Requests c etags uploadId data (present uploadId before) sent
  refuses : ¬ PartsFit c data.length (present uploadId before) →
    (∃ e, out.1 = .error e) ∧ out.2 = before

section
variable {parts : Nat → Option Stored} {r : Remote}
variable {marker last : Nat}

lemma listed_append {next} (first : marker ≤ next) (second : next ≤ last) :
    listed parts marker last = listed parts marker next ++ listed parts next last := by
  have split : range' (marker + 1) (last - marker) =
      range' (marker + 1) (next - marker) ++ range' (next + 1) (last - next) := by
    rw [show next + 1 = marker + 1 + (next - marker) by omega, range'_append_1]
    congr 1
    omega
  rw [listed, split, filterMap_append, listed, listed]

lemma number_of_mem_listed {part} (mem : part ∈ listed parts marker last) :
    marker < part.number ∧ part.number ≤ last := by
  obtain ⟨number, range, found⟩ := mem_filterMap.1 mem
  obtain ⟨stored, -, rfl⟩ := map_eq_some_iff.1 found
  rw [mem_range'_1] at range
  dsimp only
  omega

lemma orderedAfter_listed (le : marker ≤ last) (bound : last ≤ kMaximumMultipartParts) :
    orderedAfter marker (listed parts marker last) = true := by
  have ordered (n : Nat) : ∀ low first, low < first → first + n ≤ kMaximumMultipartParts + 1 →
      orderedAfter low ((range' first n).filterMap fun number =>
        (parts number).map fun part => ⟨number, part.data.length, part.etag⟩) = true := by
    induction n with
    | zero => exact fun _ _ _ _ => rfl
    | succ n ih =>
      intro low first lt le
      rw [range'_succ, filterMap_cons]
      cases parts first with
      | none => exact ih low (first + 1) (by omega) (by omega)
      | some part =>
        simp only [map_some, orderedAfter, Bool.and_eq_true, decide_eq_true_eq]
        exact ⟨⟨lt, by omega⟩, ih first (first + 1) (by omega) (by omega)⟩
  exact ordered _ marker (marker + 1) (by omega) (by omega)

lemma run_sendList (marker : Nat) :
    (sendList pager marker).run r = (.ok (pager.page r.parts marker), r) := rfl

lemma run_listPages {pages} (fuel : kMaximumMultipartParts < pages + marker)
    (bound : marker ≤ kMaximumMultipartParts) :
    (listPages pager pages marker).run r =
      (.ok (listed r.parts marker kMaximumMultipartParts), r) := by
  induction pages generalizing marker with
  | zero => omega
  | succ pages ih =>
    rw [listPages, run_bind, run_sendList]
    dsimp only
    cases next : (pager.page r.parts marker).2 with
    | none =>
      rw [pager.last _ _ next, orderedAfter_listed bound (le_refl _)]
      rfl
    | some marker' =>
      obtain ⟨lt, le, page⟩ := pager.next _ _ _ next
      rw [page, orderedAfter_listed (le_of_lt lt) le, if_neg (by simp)]
      dsimp only
      rw [if_neg (by omega), run_bind, ih (by omega) le, listed_append (le_of_lt lt) le]
      rfl

end

section
variable {c : WriterKey} {size : Nat} {parts : Nat → Option Stored}

lemma getD_set_text (l : List Text) (i j : Nat) (x : Text) :
    (l.set i x).getD j [] = if i = j ∧ i < l.length then x else l.getD j [] := by
  rw [getD_eq_getElem?_getD, getElem?_set, getD_eq_getElem?_getD]
  by_cases same : i = j
  · subst same
    by_cases inside : i < l.length
    all_goals simp [inside]
  · simp [same]

def Places (c : WriterKey) (size count : Nat) (parts : Nat → Option Stored) (number : Nat) : Prop :=
  ∀ part, parts number = some part →
    number ≤ count ∧ part.data.length = partLength c size (number - 1)

def listing (parts : Nat → Option Stored) (numbers : List Nat) : List Part :=
  numbers.filterMap fun number =>
    (parts number).map fun part => ⟨number, part.data.length, part.etag⟩

lemma placeParts_listing (c : WriterKey) (size : Nat) (parts : Nat → Option Stored)
    (numbers : List Nat) : ∀ placed : List Text, 0 ∉ numbers →
    (∀ number ∈ numbers, Places c size placed.length parts number) →
    ∃ placed', placeParts c size (listing parts numbers) placed = .ok placed' ∧
      placed'.length = placed.length ∧
      ∀ i, placed'.getD i [] =
        if i + 1 ∈ numbers then (parts (i + 1)).elim (placed.getD i []) Stored.etag
        else placed.getD i [] := by
  induction numbers with
  | nil => exact fun placed _ _ => ⟨placed, rfl, rfl, fun i => by simp⟩
  | cons number numbers ih =>
    intro placed pos all
    rw [mem_cons, not_or] at pos
    rw [listing, filterMap_cons]
    cases found : parts number with
    | none =>
      obtain ⟨placed', ran, length, etags⟩ := ih placed pos.2 fun n mem =>
        all n (mem_cons_of_mem _ mem)
      refine ⟨placed', ran, length, fun i => ?_⟩
      rw [etags i]
      by_cases same : i + 1 = number
      · simp [same, found]
      · simp [same]
    | some part =>
      obtain ⟨le, fits⟩ := all number mem_cons_self part found
      have some : placed.length = (placed.set (number - 1) part.etag).length := by simp
      obtain ⟨placed', ran, length, etags⟩ := ih (placed.set (number - 1) part.etag) pos.2
        fun n mem => some ▸ all n (mem_cons_of_mem _ mem)
      refine ⟨placed', ?_, length.trans some.symm, fun i => ?_⟩
      · simp only [map_some]
        rw [placeParts, if_neg (not_lt.2 le), if_neg (not_or.2 ⟨fun h => h fits, part.etag_ne_nil⟩)]
        exact ran
      · rw [etags i, getD_set_text]
        have place : number - 1 = i ∧ number - 1 < placed.length ↔ i + 1 = number := by omega
        simp only [place]
        by_cases same : i + 1 = number
        · simp [same, found]
        · simp [same]

lemma placeParts_refuses (numbers : List Nat) : ∀ placed : List Text,
    (∃ number ∈ numbers, ¬ Places c size placed.length parts number) →
    ∃ e, placeParts c size (listing parts numbers) placed = .error e := by
  induction numbers with
  | nil =>
    rintro placed ⟨number, mem, -⟩
    cases mem
  | cons number numbers ih =>
    rintro placed ⟨bad, mem, wrong⟩
    rw [listing, filterMap_cons]
    cases found : parts number with
    | none =>
      obtain rfl | mem := mem_cons.1 mem
      · exact absurd (fun part some => by rw [found] at some; cases some) wrong
      · exact ih placed ⟨bad, mem, wrong⟩
    | some part =>
      simp only [map_some]
      rw [placeParts]
      split
      · exact ⟨_, rfl⟩
      split
      · exact ⟨_, rfl⟩
      next le fits =>
      obtain rfl | mem := mem_cons.1 mem
      · refine absurd (fun part' some => ?_) wrong
        obtain rfl := Option.some.inj (found.symm.trans some)
        exact ⟨not_lt.1 le, Decidable.not_not.1 (not_or.1 fits).1⟩
      · refine ih _ ⟨bad, mem, ?_⟩
        rw [length_set]
        exact wrong

lemma placeParts_append (first second : List Part) (placed : List Text) :
    placeParts c size (first ++ second) placed =
      (placeParts c size first placed).bind (placeParts c size second) := by
  induction first generalizing placed with
  | nil => rfl
  | cons part first ih =>
    rw [cons_append, placeParts, placeParts]
    split
    · rfl
    split
    · rfl
    · exact ih _

lemma placePage_eq (c : WriterKey) (size : Nat) (page : List Part) :
    ∀ (last bound : Nat) (placed : List Text),
    orderedAfter last page = true → (∀ part ∈ page, part.number ≤ bound) → last ≤ bound →
    (∃ e e', placePage c size last page placed = .error e ∧
    placeParts c size page placed = .error e') ∨
    ∃ last' placed', placePage c size last page placed = .ok (last', placed') ∧
      placeParts c size page placed = .ok placed' ∧ last' ≤ bound := by
  induction page with
  | nil => exact fun last bound placed _ _ le => .inr ⟨last, placed, rfl, rfl, le⟩
  | cons part page ih =>
    intro last bound placed ordered below le
    simp only [orderedAfter, Bool.and_eq_true, decide_eq_true_eq] at ordered
    rw [placePage, placeParts]
    by_cases excess : placed.length < part.number
    · rw [if_pos (.inr excess), if_pos excess]
      exact .inl ⟨_, _, rfl, rfl⟩
    rw [if_neg (by omega), if_neg excess]
    split
    · exact .inl ⟨_, _, rfl, rfl⟩
    · exact ih part.number bound _ ordered.2 (fun p mem => below p (mem_cons_of_mem _ mem))
        (below part mem_cons_self)

lemma run_liftM {α} (x : Except Failure α) (r : Remote) :
    (liftM x : Transfer α).run r = (x, r) := rfl

lemma run_ownerPages (c : WriterKey) (pager : Pager) (size : Nat) (r : Remote) (pages marker : Nat)
    (placed : List Text)
    (fuel : kMaximumMultipartParts < pages + marker) (bound : marker ≤ kMaximumMultipartParts) :
    ∃ result, (ownerPages c pager size pages marker placed).run r = (result, r) ∧
      result.toOption =
        (placeParts c size (listed r.parts marker kMaximumMultipartParts) placed).toOption := by
  induction pages generalizing marker placed with
  | zero => omega
  | succ pages ih =>
    rw [ownerPages, run_bind, run_sendList]
    dsimp only
    rw [run_bind, run_liftM]
    cases next : (pager.page r.parts marker).2 with
    | none =>
      rw [pager.last _ _ next]
      obtain ⟨e, e', page, all⟩ | ⟨last, placed', page, all, -⟩ := placePage_eq c size
        (listed r.parts marker kMaximumMultipartParts) marker kMaximumMultipartParts placed
        (orderedAfter_listed bound (le_refl _)) (fun p mem =>
        (number_of_mem_listed mem).2) bound
      all_goals
        rw [page, all]
        exact ⟨_, rfl, rfl⟩
    | some marker' =>
      obtain ⟨lt, le, pageIs⟩ := pager.next _ _ _ next
      rw [pageIs, listed_append (le_of_lt lt) le, placeParts_append]
      obtain ⟨e, e', page, all⟩ | ⟨last, placed', page, all, small⟩ :=
        placePage_eq c size (listed r.parts marker marker') marker marker' placed
          (orderedAfter_listed (le_of_lt lt) le) (fun p mem => (number_of_mem_listed mem).2)
          (le_of_lt lt)
      · rw [page, all]
        exact ⟨_, rfl, rfl⟩
      · rw [page, all]
        dsimp only
        rw [if_neg (by omega)]
        exact ih marker' placed' (by omega) le

end

section
variable {c : WriterKey} {etags : PartEtags} {data : List UInt8} {r : Remote}

lemma run_sendPart {number} (pos : number ≠ 0) (le : number ≤ kMaximumMultipartParts)
    (bytes : List UInt8) :
    (sendPart etags number bytes).run r =
      (.ok (etags.etag number bytes), r.store etags number bytes) := by
  show (if _ then _ else _) = _
  rw [if_neg (by omega)]

structure Uploaded (c : WriterKey) (etags : PartEtags) (data : List UInt8) (order : List Nat)
    (placed : List Text) (r : Remote) (placed' : List Text) (r' : Remote) : Prop where
  length : placed'.length = placed.length
  etag : ∀ i, placed'.getD i [] =
    if i ∈ order ∧ placed.getD i [] = [] then etags.etag (i + 1) (partData c data i)
    else placed.getD i []
  parts : ∀ i, r'.parts (i + 1) =
    if i ∈ order ∧ placed.getD i [] = [] then
      some ⟨etags.etag (i + 1) (partData c data i), partData c data i, etags.ne_nil _ _⟩
    else r.parts (i + 1)
  sent : r'.sent = r.sent ++ (order.filter fun i => placed.getD i [] = []).map
    fun i => .part (i + 1) (partData c data i)

lemma run_uploadParts (c : WriterKey) (etags : PartEtags) (data : List UInt8) (order : List Nat) :
    ∀ (placed : List Text) (r : Remote), order.Nodup →
    (∀ i ∈ order, i < placed.length ∧ i < kMaximumMultipartParts) →
    ∃ placed' r', (uploadParts c etags data order placed).run r = (.ok placed', r') ∧
      Uploaded c etags data order placed r placed' r' := by
  induction order with
  | nil =>
    intro placed r _ _
    exact ⟨placed, r, rfl, rfl, fun i => by simp, fun i => by simp, by simp⟩
  | cons j order ih =>
    intro placed r distinct inside
    obtain ⟨fresh, distinct⟩ := nodup_cons.1 distinct
    obtain ⟨lt, small⟩ := inside j mem_cons_self
    rw [uploadParts]
    by_cases none : placed.getD j [] = []
    · rw [if_pos none, run_bind, run_sendPart (by omega) (by omega)]
      set etag := etags.etag (j + 1) (partData c data j)
      have others (i : Nat) (ne : i ≠ j) : (placed.set j etag).getD i [] = placed.getD i [] := by
        rw [getD_set_text, if_neg fun h => ne h.1.symm]
      have here : (placed.set j etag).getD j [] = etag := by
        rw [getD_set_text, if_pos ⟨rfl, lt⟩]
      obtain ⟨placed', r', ran, up⟩ :=
        ih (placed.set j etag) (r.store etags (j + 1) (partData c data j))
        distinct fun i mem => by
          rw [length_set]
          exact inside i (mem_cons_of_mem _ mem)
      refine ⟨placed', r', ran, ?_, fun i => ?_, fun i => ?_, ?_⟩
      · rw [up.length, length_set]
      · rw [up.etag i]
        by_cases same : i = j
        · subst same
          rw [here, if_neg fun h => fresh h.1, if_pos ⟨mem_cons_self, none⟩]
        · rw [others i same]
          simp [same]
      · rw [up.parts i]
        by_cases same : i = j
        · subst same
          rw [if_neg fun h => fresh h.1, if_pos ⟨mem_cons_self, none⟩]
          exact Function.update_self ..
        · have away : (r.store etags (j + 1) (partData c data j)).parts (i + 1) = r.parts (i + 1) :=
            Function.update_of_ne (by omega) ..
          rw [others i same, away]
          simp [same]
      · have rest : order.filter (fun i => (placed.set j etag).getD i [] = []) =
            order.filter fun i => placed.getD i [] = [] :=
          filter_congr fun i mem => by rw [others i fun same => fresh (same ▸ mem)]
        rw [up.sent, rest, filter_cons_of_pos (by simpa using none), map_cons,
          Remote.store, append_assoc]
        rfl
    · rw [if_neg none]
      obtain ⟨placed', r', ran, up⟩ := ih placed r distinct fun i mem =>
        inside i (mem_cons_of_mem _ mem)
      refine ⟨placed', r', ran, up.length, fun i => ?_, fun i => ?_, ?_⟩
      · rw [up.etag i]
        by_cases same : i = j
        · subst same
          rw [if_neg fun h => none h.2, if_neg fun h => none h.2]
        · simp [same]
      · rw [up.parts i]
        by_cases same : i = j
        · subst same
          rw [if_neg fun h => none h.2, if_neg fun h => none h.2]
        · simp [same]
      · rw [up.sent, filter_cons_of_neg (by simpa using none)]

lemma run_uploadParts_error (c : WriterKey) (etags : PartEtags) (data : List UInt8)
    (order : List Nat) : ∀ (placed : List Text) (r : Remote), order.Nodup →
    (∃ i ∈ order, kMaximumMultipartParts ≤ i ∧ placed.getD i [] = []) →
    ∃ e r', (uploadParts c etags data order placed).run r = (.error e, r') := by
  induction order with
  | nil =>
    rintro placed r _ ⟨i, mem, -⟩
    cases mem
  | cons j order ih =>
    rintro placed r distinct ⟨i, mem, large, none⟩
    obtain ⟨fresh, distinct⟩ := nodup_cons.1 distinct
    rw [uploadParts]
    by_cases empty : placed.getD j [] = []
    · rw [if_pos empty, run_bind]
      by_cases small : j + 1 ≤ kMaximumMultipartParts
      · rw [run_sendPart (by omega) small]
        have other : i ≠ j := by omega
        refine ih _ _ distinct ⟨i, (mem_cons.1 mem).resolve_left other, large, ?_⟩
        rw [getD_set_text, if_neg fun h => other h.1.symm, none]
      · have refused : (sendPart etags (j + 1) (partData c data j)).run
            r = (.error (.status 400), r) := by
          show (if _ then _ else _) = _
          rw [if_pos (by omega)]
        rw [refused]
        exact ⟨_, _, rfl⟩
    · rw [if_neg empty]
      refine ih _ _ distinct ⟨i, (mem_cons.1 mem).resolve_left fun same => ?_, large, none⟩
      exact empty (same ▸ none)

lemma assemble_parts {e : Nat → Text} {d} (order : List Nat)
    (there : ∀ i ∈ order, ∃ part, r.parts (i + 1) = some part ∧ part.etag = e i ∧ part.data = d i) :
    r.assemble (order.map fun i => (i + 1, e i)) = some (order.flatMap d) := by
  induction order with
  | nil => rfl
  | cons i order ih =>
    obtain ⟨part, found, etag, bytes⟩ := there i mem_cons_self
    rw [map_cons, Remote.assemble, found]
    dsimp only
    rw [if_pos etag, ih fun j mem => there j (mem_cons_of_mem _ mem), bytes]
    rfl

lemma flatMap_partData (pos : 0 < c.config.uploadPartSize) (n : Nat) :
    (range n).flatMap (partData c data) = data.take (n * c.config.uploadPartSize) := by
  induction n with
  | zero => simp
  | succ n ih =>
    rw [range_succ, flatMap_append, ih, flatMap_singleton, partData, slice, partLength, add_one_mul,
        take_add]
    congr 1
    rw [take_eq_take_iff, length_drop]
    omega

lemma wholeParts_eq (pos : 0 < c.config.uploadPartSize) (written : data ≠ []) :
    wholeParts c data.length = partCount c data.length := by
  have length := length_pos_iff.2 written
  rw [wholeParts, partCount, ← add_div_right _ pos]
  congr 1
  omega

lemma le_wholeParts (pos : 0 < c.config.uploadPartSize) (size : Nat) :
    size ≤ wholeParts c size * c.config.uploadPartSize := by
  have parts := div_add_mod (size + c.config.uploadPartSize - 1) c.config.uploadPartSize
  have small := mod_lt (size + c.config.uploadPartSize - 1) pos
  rw [wholeParts, mul_comm]
  omega

lemma unplaced_iff {parts : Nat → Option Stored} {placed : List Text} {i}
    (known : placed.getD i [] = (parts (i + 1)).elim [] Stored.etag) :
    placed.getD i [] = [] ↔ parts (i + 1) = none := by
  rw [known]
  cases parts (i + 1) with
  | none => simp
  | some part => simp [part.etag_ne_nil]

lemma run_complete (etags : PartEtags) {parts : Nat → Option Stored} {placed : List Text} {order}
    (pos : 0 < c.config.uploadPartSize) (written : data ≠ [])
    (le : wholeParts c data.length ≤ kMaximumMultipartParts)
    (length : placed.length = wholeParts c data.length)
    (known : ∀ i < wholeParts c data.length, placed.getD i [] = (parts (i + 1)).elim [] Stored.etag)
    (there : r.parts = parts)
    (bytes : ∀ i part, parts (i + 1) = some part → part.data.length = partLength c data.length i →
      part.data = partData c data i) (fit : PartsFit c data.length parts) (distinct : order.Nodup)
    (inside : ∀ i ∈ order, i < wholeParts c data.length)
    (all : ∀ i < wholeParts c data.length, placed.getD i [] = [] → i ∈ order) :
    ∃ r', (do
        let placed ← uploadParts c etags data order placed
        sendComplete (completeBody placed) : Transfer Unit).run r = (.ok (), r') ∧
      r'.object = some data ∧
      r'.sent = r.sent ++ (order.filter fun i => placed.getD i [] = []).map
        (fun i => .part (i + 1) (partData c data i)) ++ [.complete
        (partList c etags parts data)] := by
  have nonempty : 0 < wholeParts c data.length := by
    have := le_wholeParts pos data.length
    by_contra none
    rw [show wholeParts c data.length = 0 by omega, zero_mul] at this
    exact written (length_eq_zero_iff.1 (by omega))
  obtain ⟨placed', r', ran, up⟩ := run_uploadParts c etags data order placed r
    distinct fun i mem => ⟨length ▸ inside i mem, lt_of_lt_of_le (inside i mem) le⟩
  have absent (i : Nat) (lt : i < wholeParts c data.length) :
      placed.getD i [] = [] ↔ parts (i + 1) = none := unplaced_iff (known i lt)
  have final (i : Nat) (lt : i < wholeParts c data.length) :
      placed'.getD i [] = finalEtag c etags parts data i := by
    rw [up.etag i, finalEtag]
    cases found : parts (i + 1) with
    | none =>
      have none := (absent i lt).2 found
      rw [if_pos ⟨all i lt none, none⟩]
    | some part =>
      rw [if_neg fun h => by simp [(absent i lt).1 h.2] at found, known i lt, found]
      rfl
  have body : completeBody placed' = partList c etags parts data := by
    rw [completeBody, up.length, length, partList]
    exact map_congr_left fun i mem => by rw [final i (mem_range.1 mem)]
  have object : r'.assemble (partList c etags parts data) = some data := by
    rw [partList, assemble_parts (d := partData c data) _ fun i mem => ?_, flatMap_partData pos,
      take_of_length_le (le_wholeParts pos _)]
    have lt := mem_range.1 mem
    rw [up.parts i]
    cases found : parts (i + 1) with
    | none =>
      have none := (absent i lt).2 found
      rw [if_pos ⟨all i lt none, none⟩, finalEtag, found]
      exact ⟨_, rfl, rfl, rfl⟩
    | some part =>
      rw [if_neg fun h => by simp [(absent i lt).1 h.2] at found, there, found, finalEtag, found]
      have size := (fit (i + 1) part (by omega) (by omega) found).2
      exact ⟨part, rfl, rfl, bytes i part found size⟩
  have some_parts : partList c etags parts data ≠ [] := by
    intro none
    rw [partList, map_eq_nil_iff, range_eq_nil] at none
    omega
  rw [run_bind, ran]
  dsimp only
  rw [body]
  refine ⟨⟨fun _ => none, some data, r'.sent ++ [.complete (partList c etags parts data)]⟩, ?_, rfl,
    ?_⟩
  · show (if _ then _ else _) = _
    rw [if_neg some_parts, object]
  · rw [up.sent]

end

/-- The service takes so many parts, and there is a part to complete the upload with. -/
def Workable (c : WriterKey) (uploadId : Text) (data : List UInt8) : Prop :=
  wholeParts c data.length ≤ kMaximumMultipartParts ∧ (data ≠ [] ∨ uploadId = [])

structure Behaves (c : WriterKey) (etags : PartEtags) (uploadId : Text) (data : List UInt8)
    (before : Remote) (out : Except Failure Unit × Remote) : Prop where
  completes : PartsFit c data.length (present uploadId before) → Workable c uploadId data →
    out.1 = .ok () ∧ out.2.object = some data ∧
    ∃ sent, out.2.sent = before.sent ++ sent ∧
      Requests c etags uploadId data (present uploadId before) sent
  fails : PartsFit c data.length (present uploadId before) → ¬ Workable c uploadId data →
    ∃ e, out.1 = .error e
  refuses : ¬ PartsFit c data.length (present uploadId before) →
    (∃ e, out.1 = .error e) ∧ out.2 = before

/-- A part of the right length is the part of the local bytes. -/
def OwnBytes (c : WriterKey) (data : List UInt8) (before : Remote) : Prop :=
  ∀ number part, before.parts number = some part →
    part.data.length = partLength c data.length (number - 1) → part.data =
      partData c data (number - 1)

section
variable {c : WriterKey} {etags : PartEtags} {uploadId : Text} {data : List UInt8} {before : Remote}

lemma fit_of_new (empty : uploadId = []) (size : Nat) :
    PartsFit c size (present uploadId before) := by
  rw [present, if_pos empty]
  exact fun _ _ _ _ found => nomatch found

lemma behaves_single (pos : 0 < c.config.uploadPartSize) (one : single c uploadId data = true) :
    Behaves c etags uploadId data before ((sendPut data).run before) := by
  have empty : uploadId = [] := by
    simp only [single, Bool.and_eq_true, List.isEmpty_iff] at one
    exact one.2
  have fit : PartsFit c data.length (present uploadId before) := fit_of_new empty _
  have small : wholeParts c data.length ≤ kMaximumMultipartParts := by
    have length : data.length ≤ c.config.uploadPartSize := by
      simp only [single, Bool.and_eq_true, decide_eq_true_eq] at one
      exact one.1
    refine Nat.le_trans (m := 1) (Nat.lt_succ_iff.1 ?_) (by decide)
    rw [wholeParts, Nat.div_lt_iff_lt_mul pos]
    omega
  refine ⟨fun _ _ => ⟨rfl, rfl, [.put data], rfl, ?_⟩, fun _ no => absurd ⟨small, .inr empty⟩ no,
    fun no => absurd fit no⟩
  rw [Requests, if_pos one]

lemma partsFit_iff (parts : Nat → Option Stored) (size : Nat) :
    PartsFit c size parts ↔ ∀ number ∈ range' 1 kMaximumMultipartParts,
      Places c size (wholeParts c size) parts number := by
  simp only [PartsFit, Places, mem_range'_1]
  exact ⟨fun fit n range part found => fit n part (by omega) (by omega) found,
    fun fit n part low high found => fit n (by omega) part found⟩

variable {parts : Nat → Option Stored}

lemma placed_of_fit {count size} (whole : count = wholeParts c size) (fit : PartsFit c size parts) :
    ∃ placed, placeParts c size (listed parts 0 kMaximumMultipartParts)
        (replicate count []) = .ok placed ∧ placed.length = wholeParts c size ∧
      (∀ i < kMaximumMultipartParts, placed.getD i [] = (parts (i + 1)).elim [] Stored.etag) ∧
      ∀ i ≥ kMaximumMultipartParts, placed.getD i [] = [] := by
  have empty (i : Nat) : (replicate count ([] : Text)).getD i [] = [] := by
    rw [getD_eq_getElem?_getD, getElem?_replicate]
    split <;> rfl
  obtain ⟨placed, ran, length, etag⟩ := placeParts_listing c size parts
    (range' 1 kMaximumMultipartParts) (replicate count []) (by simp) (by
      rw [length_replicate, whole]
      exact (partsFit_iff parts size).1 fit)
  rw [length_replicate, whole] at length
  refine ⟨placed, ran, length, fun i lt => ?_, fun i ge => ?_⟩
  · rw [etag i, if_pos (mem_range'_1.2 (by omega)), empty]
  · rw [etag i, if_neg (fun mem => by rw [mem_range'_1] at mem; omega), empty]

lemma refused_of_not_fit {count size} (whole : count = wholeParts c size)
    (no : ¬ PartsFit c size parts) :
    ∃ e, placeParts c size (listed parts 0 kMaximumMultipartParts)
      (replicate count []) = .error e := by
  refine placeParts_refuses _ _ ?_
  rw [length_replicate, whole]
  rw [partsFit_iff] at no
  simpa [and_assoc] using no

def opened (uploadId : Text) (before : Remote) : Remote :=
  if uploadId = [] then { before with parts := fun _ => none, sent := before.sent ++ [.create] }
  else before

lemma opened_parts : (opened uploadId before).parts = present uploadId before := by
  rw [opened, present]
  split <;> rfl

lemma opened_sent : (opened uploadId before).sent =
    before.sent ++ if uploadId = [] then [.create] else [] := by
  rw [opened]
  split
  · rfl
  · rw [append_nil]

lemma run_startUpload (uploadId : Text) (before : Remote) :
    (startUpload uploadId).run before = (.ok (), opened uploadId before) := by
  rw [opened, startUpload]
  split <;> rfl

lemma opened_of_ne (id : uploadId ≠ []) : opened uploadId before = before := if_neg id

lemma behaves_upload {placed : List Text} {order} (pos : 0 < c.config.uploadPartSize)
    (written : data ≠ []) (several : single c uploadId data = false)
    (bytes : OwnBytes c data before)
    (fit : PartsFit c data.length (present uploadId before))
    (length : placed.length = wholeParts c data.length) (known : ∀ i < kMaximumMultipartParts,
      placed.getD i [] = (present uploadId before (i + 1)).elim [] Stored.etag)
    (high : ∀ i ≥ kMaximumMultipartParts, placed.getD i [] = []) (distinct : order.Nodup)
    (inside : ∀ i ∈ order, i < wholeParts c data.length)
    (all : ∀ i < wholeParts c data.length, placed.getD i [] = [] → i ∈ order) :
    Behaves c etags uploadId data before ((do
      let placed ← uploadParts c etags data order placed
      sendComplete (completeBody placed) : Transfer Unit).run (opened uploadId before)) := by
  refine ⟨fun _ work => ?_, fun _ no => ?_, fun no => absurd fit no⟩
  · have le := work.1
    obtain ⟨r', ran, object, sent⟩ :=
      run_complete etags (r := opened uploadId before) pos
      written le length (fun i lt => known i (lt_of_lt_of_le lt le)) opened_parts
      (fun i part found size => by
        rw [present] at found
        split at found
        · cases found
        · exact bytes (i + 1) part found size) fit distinct inside all
    rw [ran]
    rw [opened_sent, append_assoc, append_assoc] at sent
    refine ⟨rfl, object, _, sent, ?_⟩
    · rw [Requests, if_neg (by simp [several])]
      refine ⟨order.filter fun i => placed.getD i [] = [], ?_, by rw [append_assoc]⟩
      refine (perm_ext_iff_of_nodup (distinct.filter _) (nodup_range.filter _)).2 fun i => ?_
      have absent (lt : i < wholeParts c data.length) :
          placed.getD i [] = [] ↔ present uploadId before (i + 1) = none :=
        unplaced_iff (known i (lt_of_lt_of_le lt le))
      rw [mem_filter, mem_filter, mem_range, decide_eq_true_eq, isNone_iff_eq_none]
      constructor
      · rintro ⟨mem, none⟩
        exact ⟨inside i mem, (absent (inside i mem)).1 none⟩
      · rintro ⟨lt, none⟩
        exact ⟨all i lt ((absent lt).2 none), (absent lt).2 none⟩
  · have large : kMaximumMultipartParts < wholeParts c data.length := by
      by_contra small
      exact no ⟨not_lt.1 small, .inl written⟩
    obtain ⟨e, r', ran⟩ := run_uploadParts_error c etags data order placed (opened uploadId before)
      distinct ⟨kMaximumMultipartParts, all _ large (high _ (le_refl _)), le_refl _,
        high _ (le_refl _)⟩
    rw [run_bind, ran]
    exact ⟨e, rfl⟩

lemma behaves_error {e}
    (no : ¬ (PartsFit c data.length (present uploadId before) ∧ Workable c uploadId data)) :
    Behaves c etags uploadId data before (.error e, before) :=
  ⟨fun fit work => absurd ⟨fit, work⟩ no, fun _ _ => ⟨e, rfl⟩, fun _ => ⟨⟨e, rfl⟩, rfl⟩⟩

lemma not_workable (several : single c uploadId data = false) (empty : data = []) :
    uploadId ≠ [] ∧ ¬ Workable c uploadId data := by
  have id : uploadId ≠ [] := by
    rintro rfl
    rw [empty] at several
    simp [single] at several
  exact ⟨id, fun work => work.2.elim (absurd empty) id⟩

lemma behaves_background (pos : 0 < c.config.uploadPartSize) (bytes : OwnBytes c data before) :
    Behaves c etags uploadId data before
      ((recoverWrite c pager etags uploadId data).run before) := by
  rw [recoverWrite]
  cases several : single c uploadId data with
  | true => exact behaves_single pos several
  | false =>
    rw [if_neg Bool.false_ne_true, run_bind, run_startUpload]
    dsimp only
    rw [run_bind, run_listPages pager (by decide) (by decide), opened_parts]
    dsimp only
    by_cases empty : data = []
    · obtain ⟨id, no⟩ := not_workable several empty
      rw [if_pos empty, opened_of_ne id]
      exact behaves_error fun h => no h.2
    have whole := wholeParts_eq pos empty
    rw [if_neg empty, run_bind, run_liftM]
    by_cases fit : PartsFit c data.length (present uploadId before)
    · obtain ⟨placed, ran, length, known, high⟩ := placed_of_fit whole.symm fit
      rw [ran]
      refine behaves_upload pos empty several bytes fit length known high nodup_range ?_ ?_
      · exact fun i mem => whole ▸ mem_range.1 mem
      · exact fun i lt _ => mem_range.2 (whole ▸ lt)
    · obtain ⟨e, ran⟩ := refused_of_not_fit whole.symm fit
      have id : uploadId ≠ [] := fun none => fit (fit_of_new none _)
      rw [ran, opened_of_ne id]
      exact behaves_error fun h => fit h.1

lemma toOption_eq_some {α : Type} {x : Except Failure α} {a} (h : x.toOption = some a) :
    x = .ok a := by
  cases x with
  | error e => cases h
  | ok b =>
    cases h
    rfl

lemma toOption_eq_none {α : Type} {x : Except Failure α} (h : x.toOption = none) :
    ∃ e, x = .error e := by
  cases x with
  | error e => exact ⟨e, rfl⟩
  | ok b => cases h

lemma run_ownerParts (c : WriterKey) (pager : Pager) (uploadId : Text) (before : Remote)
    (size : Nat) (none : List Text) :
    ∃ result, (ownerParts c pager uploadId size none).run before =
        (result, opened uploadId before) ∧
      result.toOption = (placeParts c size
        (listed (present uploadId before) 0 kMaximumMultipartParts) none).toOption := by
  by_cases id : uploadId = []
  · have nothing : listed (fun _ => Option.none) 0 kMaximumMultipartParts = [] := by
      rw [listed, filterMap_eq_nil_iff]
      exact fun _ _ => rfl
    rw [ownerParts, if_pos id, opened, if_pos id, present, if_pos id, nothing]
    exact ⟨_, rfl, rfl⟩
  · obtain ⟨result, ran, same⟩ := run_ownerPages c pager size before
      (kMaximumMultipartParts + 1) 0 none (by decide) (by decide)
    rw [ownerParts, if_neg id, opened_of_ne id, present, if_neg id]
    exact ⟨result, ran, same⟩

lemma behaves_owner {arrivals} (arrives : ∀ l, (arrivals l).Perm l)
    (pos : 0 < c.config.uploadPartSize) (bytes : OwnBytes c data before) :
    Behaves c etags uploadId data before
      ((ownerRecoverWrite c pager etags arrivals uploadId data).run before) := by
  rw [ownerRecoverWrite]
  cases several : single c uploadId data with
  | true => exact behaves_single pos several
  | false =>
    rw [if_neg Bool.false_ne_true]
    by_cases empty : data = []
    · rw [if_pos empty]
      exact behaves_error fun h => (not_workable several empty).2 h.2
    have whole := wholeParts_eq pos empty
    rw [if_neg empty]
    by_cases excess : kMaximumMultipartParts < partCount c data.length
    · rw [if_pos excess]
      exact behaves_error fun h => by have := h.2.1; omega
    rw [if_neg excess, run_bind]
    obtain ⟨result, ran, same⟩ := run_ownerParts c pager uploadId before data.length
      (replicate (partCount c data.length) [])
    rw [ran]
    by_cases fit : PartsFit c data.length (present uploadId before)
    · obtain ⟨placed, all, length, known, high⟩ := placed_of_fit whole.symm fit
      rw [all] at same
      obtain rfl := toOption_eq_some same
      refine behaves_upload pos empty several bytes fit length known high ?_ ?_ ?_
      · exact (arrives _).nodup_iff.2 (nodup_range.filter _)
      · intro i mem
        rw [(arrives _).mem_iff, missing, mem_filter, mem_range] at mem
        exact length ▸ mem.1
      · intro i lt none
        rw [(arrives _).mem_iff, missing, mem_filter, mem_range]
        exact ⟨length ▸ lt, by simpa using none⟩
    · obtain ⟨e, all⟩ := refused_of_not_fit whole.symm fit
      have id : uploadId ≠ [] := fun none => fit (fit_of_new none _)
      rw [all] at same
      obtain ⟨e', rfl⟩ := toOption_eq_none same
      rw [opened_of_ne id]
      exact behaves_error fun h => fit h.1

lemma requests_last {sent} (requests : Requests c etags uploadId data parts sent)
    (log : List Sent) :
    (log ++ sent).getLast? = some (if single c uploadId data then .put data
      else .complete (partList c etags parts data)) := by
  rw [Requests] at requests
  split at requests
  · rename_i one
    rw [requests, if_pos one, getLast?_concat]
  · rename_i several
    obtain ⟨order, -, rfl⟩ := requests
    rw [if_neg several, ← append_assoc, getLast?_concat]

namespace Behaves
variable {out out' : Except Failure Unit × Remote}

section
variable (b : Behaves c etags uploadId data before out)
include b

lemma ok_iff : out.1 = .ok () ↔
    PartsFit c data.length (present uploadId before) ∧ Workable c uploadId data := by
  constructor
  · intro ok
    -- otherwise the recovery has thrown
    by_contra no
    have error : ∃ e, out.1 = .error e := by
      by_cases fit : PartsFit c data.length (present uploadId before)
      · exact b.fails fit fun work => no ⟨fit, work⟩
      · exact (b.refuses fit).1
    obtain ⟨e, error⟩ := error
    rw [ok] at error
    cases error
  · exact fun h => (b.completes h.1 h.2).1

lemma exact_iff :
    Exact c etags uploadId data before out ↔
      (PartsFit c data.length (present uploadId before) → Workable c uploadId data) := by
  constructor
  · intro exact fit
    exact (b.ok_iff.1 (exact.completes fit).1).2
  · exact fun work => ⟨fun fit => b.completes fit (work fit), b.refuses⟩

lemma last_eq (b' : Behaves c etags uploadId data before out') (ok : out.1 = .ok ()) :
    out.2.sent.getLast? = out'.2.sent.getLast? := by
  obtain ⟨fit, work⟩ := b.ok_iff.1 ok
  obtain ⟨-, -, sent, log, requests⟩ := b.completes fit work
  obtain ⟨-, -, sent', log', requests'⟩ := b'.completes fit work
  rw [log, log', requests_last requests, requests_last requests']

end

end Behaves

end

/-- For every write, every set of parts the service has and every cut of their list into pages, both
recoveries accept the same, and complete with the same request; and they are exact unless the parts
fit and the upload still cannot be completed: because the write has too many parts, or because it is
empty and there is an upload for it. -/
theorem recovery_exact_iff (c : WriterKey) (pos : 0 < c.config.uploadPartSize)
    (pager pager' : Pager) (etags : PartEtags) (arrivals : List Nat → List Nat)
    (arrives : ∀ l, (arrivals l).Perm l) (uploadId : Text) (data : List UInt8) (before : Remote)
    (bytes : ∀ number part, before.parts number = some part →
      part.data.length = partLength c data.length (number - 1) →
      part.data = partData c data (number - 1)) :
    let background := (recoverWrite c pager etags uploadId data).run before
    let owner := (ownerRecoverWrite c pager' etags arrivals uploadId data).run before
    ((background.1 = .ok () ↔ owner.1 = .ok ()) ∧
      (background.1 = .ok () → background.2.sent.getLast? = owner.2.sent.getLast?)) ∧
    (Exact c etags uploadId data before background ∧ Exact c etags uploadId data before owner ↔
      (PartsFit c data.length (present uploadId before) → Workable c uploadId data)) := by
  intro background owner
  have first : Behaves c etags uploadId data before background := behaves_background pager pos bytes
  have second : Behaves c etags uploadId data before owner := behaves_owner pager' arrives pos bytes
  refine ⟨⟨first.ok_iff.trans second.ok_iff.symm, first.last_eq second⟩, ?_⟩
  rw [first.exact_iff, second.exact_iff, and_self]

def twoByteParts : WriterKey := { keyA with config := ⟨2, 0⟩ }

def onePage : Pager where
  page parts marker := (listed parts marker kMaximumMultipartParts, none)
  last _ _ _ := rfl
  next _ _ _ h := nomatch h

def sameEtag : PartEtags := ⟨fun _ _ => [101], fun _ _ => cons_ne_nil _ _⟩

def firstPart : Remote where
  parts number := if number = 1 then some ⟨[112], [1, 2], cons_ne_nil _ _⟩ else none
  object := none
  sent := []

theorem recovery_exact_iff_firstPart : Exact twoByteParts sameEtag [117] [1, 2, 3] firstPart
        ((recoverWrite twoByteParts onePage sameEtag [117] [1, 2, 3]).run firstPart) ∧
      Exact twoByteParts sameEtag [117] [1, 2, 3] firstPart
        ((ownerRecoverWrite twoByteParts onePage sameEtag reverse [117] [1, 2, 3]).run
          firstPart) := by
  refine ((recovery_exact_iff twoByteParts (by decide) onePage onePage sameEtag reverse
    reverse_perm [117] [1, 2, 3] firstPart ?_).2).2 fun _ => ⟨by decide, .inl (by decide)⟩
  intro number part found _
  obtain ⟨first, ⟨⟩⟩ := ite_none_right_eq_some.1 found
  rw [first]
  decide

def noParts : Remote := ⟨fun _ => none, none, []⟩

/-- A file that has been emptied after an upload was created for it is not recovered, although no
part of the upload is in the way. -/
theorem empty_write_refused : PartsFit keyA 0 (present [117] noParts) ∧
    ¬ Exact keyA sameEtag [117] [] noParts
      ((recoverWrite keyA onePage sameEtag [117] []).run noParts) ∧
    ¬ Exact keyA sameEtag [117] [] noParts
      ((ownerRecoverWrite keyA onePage sameEtag id [117] []).run noParts) := by
  have fit : PartsFit keyA 0 (present [117] noParts) := fun _ _ _ _ found => nomatch found
  have no : ¬ Workable keyA [117] [] := fun work => by
    have := work.2
    simp at this
  have bytes : OwnBytes keyA [] noParts := fun _ _ found => nomatch found
  refine ⟨fit, fun exact => no ?_, fun exact => no ?_⟩
  · exact (behaves_background onePage (by decide) bytes).exact_iff.1 exact fit
  · exact (behaves_owner onePage (fun l => List.Perm.refl l) (by decide) bytes).exact_iff.1
        exact fit

end Ngs3fs.Recovery
