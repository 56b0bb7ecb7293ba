import Ngs3fs.Parts.System

/-!
# One step and the counters

What a thread or a request holds is a function of what it is doing. `Fair` says what the steps of
`advance` have in common: the parts held before a step, with those it reserves, are the parts held
after it, with those it releases or hands over; and what the step leaves to the others that work on
the same handle. -/

namespace Ngs3fs.Parts

namespace Work

def units (w : Work) : Nat := w.parts + w.flushes + w.hand

def owns : Work → Bool
  | .write _ _ _ => true
  | .ownerWrite .start _ _ => false
  | .ownerWrite _ _ _ => true
  | .cachedWrite .start _ => false
  | .cachedWrite _ _ => true
  | _ => false

/-- What it relies on `current_reservation` to be. -/
def backing : Work → Option Bool
  | .write .fill _ _ => some true
  | .write (.giveBack false) _ _ => some true
  | .ownerWrite .reserved _ _ => some false
  | .ownerWrite .backed _ _ => some true
  | .ownerWrite .transfer _ _ => some true
  | _ => none

def settling : Work → Bool
  | .flush ⟨.prepare, _, _, _, _⟩ => true
  | .sealWrite .taking _ => true
  | _ => false

def fresh : Work → Bool
  | .flush ⟨stage, _, _, _, _⟩ =>
    match stage with
    | .start | .prepare | .giveBack _ | .pending | .admission | .queued => true
    | _ => false
  | .part p => p.stage == .queued
  | _ => false

def slotted : Work → Bool
  | .part _ => true
  | .flush ⟨.telling _, _, _, _, _⟩ => false
  | .flush _ => true
  | _ => false

/-- An upload has dropped its part before the handle is told, and a flush holds a part only after it
has taken it. -/
def Sound : Work → Prop
  | .part p =>
    match p.stage with
    | .released _ | .told => p.budgeted = false
    | _ => True
  | .flush f => (f.reserved = true → f.partsPrepared = true) ∧
    match f.stage with
    | .prepare | .giveBack _ => f.partsPrepared = false
    | .freed _ | .telling _ => f.reserved = false
    | _ => True
  | .sealWrite .putting _ => True
  | .sealWrite (.freeing _) _ => True
  | .sealWrite _ reserved => reserved = false
  | _ => True

end Work

def Handle.Backed (h : Handle) : Prop := h.currentPart.getD 0 ≠ 0 → h.currentReservation = true

def Handle.Settled (h : Handle) : Prop := h.writeState ≠ .opened ∧ h.writeInProgress = false

structure Ready (h : Handle) (w : Work) (slot : Bool) : Prop where
  sound : w.Sound
  part : h.Backed
  backing : ∀ {v}, w.backing = some v → h.currentReservation = v
  settled : w.settling = true → h.Settled
  slotted : slot = true → w.slotted = true
  fresh : w.fresh = true → slot = false

namespace Effect

def taken : Effect → Nat
  | .reserve | .serve => 1
  | _ => 0

def given : Effect → Nat
  | .release => 1
  | .submit budgeted _ => budgeted.toNat
  | _ => 0

end Effect

/-- The reservation if it is not its own write, the state of the write, and the life of the handle.
-/
structure Leaves (c : Config) (w : Work) (h h' : Handle) : Prop where
  quiet : w.owns = false → h.writeInProgress = true → h'.currentReservation = h.currentReservation
  settled : h.Settled → h'.Settled
  life : h'.life = h.life
  stray : w.guards c = false → h'.currentReservation = h.currentReservation
  part : h'.Backed

structure Fair (c : Config) (b : Budget) (slot : Bool) (h : Handle) (w : Work) (n : Next) :
    Prop where
  units : n.work.units + n.handle.currentReservation.toNat + n.effect.given =
    w.units + h.currentReservation.toNat + n.effect.taken
  room : 0 < n.effect.taken → b.available c = true
  owns : n.work.owns.toNat + h.writeInProgress.toNat =
    w.owns.toNat + n.handle.writeInProgress.toNat
  leaves : Leaves c w h n.handle
  finish : n.effect = .finishUpload → slot = true
  ready : Ready n.handle n.work (slot && n.effect != .finishUpload)
  queue : (n.work.queued = true ↔ ∃ fault, n.effect = .admission fault) ∧
    (n.work.queued = true → w.fresh = true)
  fresh : n.work.fresh = true → w.fresh = true
  guards : n.work.guards c = true → w.guards c = true
  submits : ∀ budgeted fault, n.effect = .submit budgeted fault → w.guards c = true

structure Alike (h h' : Handle) : Prop where
  reservation : h'.currentReservation = h.currentReservation
  part : h'.currentPart = h.currentPart
  progress : h'.writeInProgress = h.writeInProgress
  life : h'.life = h.life
  closed : h.writeState ≠ .opened → h'.writeState ≠ .opened

namespace Alike
variable {h h' : Handle}

lemma refl (h : Handle) : Alike h h := ⟨rfl, rfl, rfl, rfl, id⟩

lemma settled (a : Alike h h') (s : h.Settled) : h'.Settled :=
  ⟨a.closed s.1, a.progress ▸ s.2⟩

lemma backed (a : Alike h h') (p : h.Backed) : h'.Backed := by
  intro bytes
  rw [a.part] at bytes
  rw [a.reservation]
  exact p bytes

lemma leaves {c w} (a : Alike h h') (p : h.Backed) : Leaves c w h h' :=
  ⟨fun _ _ => a.reservation, a.settled, a.life, fun _ => a.reservation, a.backed p⟩

lemma failWrite (h : Handle) : Alike h h.failWrite := ⟨rfl, rfl, rfl, rfl, fun _ => nofun⟩

end Alike

section
variable {c : Config} {b : Budget} {slot : Bool} {h h' : Handle} {w w' : Work}

lemma Ready.unslotted (r : Ready h w slot) (role : w.slotted = false) : slot = false := by
  cases slot with
  | false => rfl
  | true => exact (r.slotted rfl).symm.trans role

/-! ### Uploads of parts -/

variable {p : Part}

lemma part_idle {p'} (r : Ready h (.part p) slot) (a : Alike h h')
    (same : p'.budgeted = p.budgeted) (moved : p'.stage ≠ .queued) (sound : (Work.part p').Sound) :
    Fair c b slot h (.part p) ⟨h', .part p', .none⟩ := by
  have queued : (p'.stage == .queued) = false := beq_eq_false_iff_ne.2 moved
  have fresh {q : Prop} (fresh : (p'.stage == .queued) = true) : q :=
    absurd (queued.symm.trans fresh) Bool.false_ne_true
  refine ⟨?_, nofun, ?_, a.leaves r.part, nofun, ⟨sound, a.backed r.part, nofun, nofun,
    fun _ => rfl, fresh⟩, ⟨⟨fresh, nofun⟩, fresh⟩, fresh, id, nofun⟩
  · rw [a.reservation]
    show p'.budgeted.toNat + 0 + 0 + _ + 0 = p.budgeted.toNat + 0 + 0 + _ + 0
    rw [same]
  · rw [a.progress]
    rfl

variable {n : Next}

section
variable (r : Ready h (.part p) slot)
include r

lemma beginPart_fair {q starts} (a : Alike h h') (same : q.budgeted = p.budgeted)
    (step : beginPart h' q starts = some n) : Fair c b slot h (.part p) n := by
  rw [beginPart] at step
  split at step
  · cases step
    exact part_idle r a same nofun trivial
  split at step
  · cases step
    cases starts with
    | false | true => exact part_idle r a same nofun trivial
  · cases step
    -- whether the upload has been created before or not, the request is sent
    have alike (starting : Bool) : Alike h { h' with multipartStarting := starting } :=
      { a with }
    cases starts with
    | false | true => exact part_idle r (alike _) same nofun trivial

lemma createdPart_fair {starts} (step : createdPart h p starts = some n) :
    Fair c b slot h (.part p) n :=
  have alike : Alike h { h with uploadId := true, multipartStarting := false } :=
    ⟨rfl, rfl, rfl, rfl, id⟩
  beginPart_fair (q := { p with creating := false }) r alike rfl step

lemma finishing_fair {error} :
    Fair c b slot h (.part p) ⟨h, .part { p with stage := .released error, budgeted := false },
      if p.budgeted then .release else .none⟩ := by
  cases hb : p.budgeted with
  | false => exact part_idle r (.refl h) hb.symm nofun rfl
  | true =>
    refine ⟨?_, nofun, rfl, (Alike.refl h).leaves r.part, nofun, ?_, ?_, nofun, id, nofun⟩
    · simp only [Work.units, Work.parts, Work.flushes, Work.hand, hb, Effect.given, Effect.taken,
        Bool.toNat_false, Bool.toNat_true, if_true]
      omega
    · exact ⟨rfl, r.part, nofun, nofun, fun _ => rfl, nofun⟩
    · simp [Work.queued]

lemma told_fair (unbudgeted : p.budgeted = false) :
    Fair c b slot h (.part p) ⟨h, .done, if slot then .finishUpload else .none⟩ := by
  have leaves : Leaves c (.part p) h h := (Alike.refl h).leaves r.part
  have ready : Ready h .done false := ⟨trivial, r.part, nofun, nofun, nofun, nofun⟩
  have units : 0 = (Work.part p).units := by
    show 0 = p.budgeted.toNat
    rw [unbudgeted]
    rfl
  cases slot with
  | false =>
    exact ⟨by rw [← units]; rfl, nofun, rfl, leaves, nofun, ready, ⟨⟨nofun, nofun⟩, nofun⟩, nofun,
      nofun, nofun⟩
  | true =>
    exact ⟨by rw [← units]; rfl, nofun, rfl, leaves, fun _ => rfl, ready, ⟨⟨nofun, nofun⟩, nofun⟩,
      nofun, nofun, nofun⟩

end

variable {outcome : Outcome}

lemma partStep_fair (r : Ready h (.part p) slot) (step : partStep slot h p outcome = some n) :
    Fair c b slot h (.part p) n := by
  have go (stage : PartStage) (moved : stage ≠ .queued)
      (sound : (Work.part { p with stage }).Sound) :
      Fair c b slot h (.part p) ⟨h, .part { p with stage }, .none⟩ :=
    part_idle r (.refl h) rfl moved sound
  unfold partStep at step
  dsimp only at step
  split at step
  case h_1 => cases step
  case h_2 =>
    split at step
    · cases step
      exact go .preparing nofun trivial
    · cases step
      exact go (.finishing true) nofun trivial
  case h_3 =>
    cases step
    exact go (.prepared false) nofun trivial
  case h_4 =>
    cases step
    exact go (.prepared true) nofun trivial
  case h_5 | h_6 | h_7 | h_8 | h_13 | h_14 => exact beginPart_fair r (.refl h) rfl step
  case h_9 =>
    split at step
    · cases step
      exact go .persisting nofun trivial
    · cases step
      exact go (.finishing false) nofun trivial
  case h_10 =>
    split at step
    · cases step
      exact part_idle r (.refl h) rfl nofun trivial
    · cases step
      exact go (.finishing true) nofun trivial
  case h_11 | h_12 => exact createdPart_fair r step
  case h_15 =>
    split at step
    · cases step
      exact go (.finishing true) nofun trivial
    split at step
    · cases step
    split at step
    · cases step
      exact go .uploading nofun trivial
    · cases step
      exact part_idle r ⟨rfl, rfl, rfl, rfl, id⟩ rfl nofun trivial
  case h_16 =>
    cases step
    exact part_idle r ⟨rfl, rfl, rfl, rfl, id⟩ rfl nofun trivial
  case h_17 =>
    cases step
    exact part_idle r ⟨rfl, rfl, rfl, rfl, fun _ => nofun⟩ rfl nofun trivial
  case h_18 =>
    cases step
    exact go (.finishing false) nofun trivial
  case h_19 =>
    cases step
    exact finishing_fair r
  case h_20 error released =>
    cases step
    have dropped : p.budgeted = false := by
      have sound := r.sound
      rw [Work.Sound, released] at sound
      exact sound
    refine part_idle r ?_ rfl nofun dropped
    split
    · exact ⟨rfl, rfl, rfl, rfl, fun _ => nofun⟩
    · exact ⟨rfl, rfl, rfl, rfl, id⟩
  case h_21 told =>
    cases step
    have sound := r.sound
    rw [Work.Sound, told] at sound
    exact told_fair r sound
  all_goals
    cases step
    exact go (.finishing true) nofun trivial

/-! ### Writes -/

def Work.plain : Work → Bool
  | .write _ _ _ => true
  | .ownerWrite _ _ _ => true
  | .cachedWrite _ _ => true
  | .done => true
  | _ => false

namespace Work

lemma plain_unslotted (p : w.plain = true) : w.slotted = false ∧ w.fresh = false ∧
    w.queued = false ∧ w.settling = false ∧ w.Sound := by
  cases w with
  | write | ownerWrite | cachedWrite | done => exact ⟨rfl, rfl, rfl, rfl, trivial⟩
  | part | flush | sealWrite | retire => cases p

lemma owns_spec (own : w.owns = true) : w.Sound ∧ w.settling = false ∧ w.guards c = true := by
  cases w with
  | write | ownerWrite | cachedWrite => exact ⟨trivial, rfl, rfl⟩
  | part | flush | sealWrite | retire | done => cases own

/-- A step of a request from `w` to `w'` that the scheduler has no part in. -/
def moves (c : Config) (w w' : Work) : Bool :=
  w.guards c && !w'.queued && (!w'.fresh || w.fresh) && (!w.slotted || w'.slotted)

end Work

namespace Effect

def ofWrite : Effect → Bool
  | .finishUpload => false
  | .admission _ => false
  | _ => true

def gives : Effect → Bool
  | .none | .release | .submit _ _ => true
  | _ => false

lemma gives_spec {effect : Effect} (gives : effect.gives = true) :
    effect.ofWrite = true ∧ effect.taken = 0 ∧ ∀ {q : Prop}, 0 < effect.taken → q := by
  cases effect with
  | none | release | submit => exact ⟨rfl, rfl, nofun⟩
  | reserve | queue | serve | admission | finishUpload => cases gives

end Effect

variable {length : Nat} {effect : Effect}

lemma Fair.go (r : Ready h w slot) (moves : w.moves c w' = true) (kind : effect.ofWrite = true)
    (leaves : Leaves c w h h') (units : w'.units + h'.currentReservation.toNat + effect.given =
      w.units + h.currentReservation.toNat + effect.taken)
    (room : 0 < effect.taken → b.available c = true)
    (owns : w'.owns.toNat + h.writeInProgress.toNat = w.owns.toNat + h'.writeInProgress.toNat)
    (sound : w'.Sound) (backing : ∀ {v}, w'.backing = some v → h'.currentReservation = v)
    (settling : w'.settling = true → h'.Settled) : Fair c b slot h w ⟨h', w', effect⟩ := by
  simp only [Work.moves, Bool.and_eq_true, Bool.or_eq_true, Bool.not_eq_true'] at moves
  obtain ⟨⟨⟨guards, unqueued⟩, freshens⟩, slots⟩ := moves
  have fresh (new : w'.fresh = true) : w.fresh = true :=
    freshens.resolve_left fun old => Bool.false_ne_true (old.symm.trans new)
  have queued {q : Prop} (queued : w'.queued = true) : q :=
    absurd (unqueued.symm.trans queued) Bool.false_ne_true
  have stays : (effect != .finishUpload) = true := by
    cases effect with
    | finishUpload => cases kind
    | _ => rfl
  refine ⟨units, room, owns, leaves, ?_, ?_, ⟨⟨queued, ?_⟩, queued⟩, fresh, fun _ => guards,
    fun _ _ _ => guards⟩
  · rintro ⟨⟩
    cases kind
  · rw [stays, Bool.and_true]
    refine ⟨sound, leaves.part, backing, settling, fun slot => ?_, fun new => r.fresh (fresh new)⟩
    exact slots.resolve_left fun no => Bool.false_ne_true (no.symm.trans (r.slotted slot))
  · rintro ⟨fault, ⟨⟩⟩
    cases kind

lemma Leaves.own (own : w.owns = true) (progress : h.writeInProgress = true)
    (life : h'.life = h.life) (part : h'.Backed) : Leaves c w h h' := by
  refine ⟨fun no => ?_, fun settled => ?_, life, fun no => ?_, part⟩
  · cases no.symm.trans own
  · cases settled.2.symm.trans progress
  · cases no.symm.trans (Work.owns_spec own).2.2

lemma endWrite_spec (h : Handle) (length : Nat) (error : Bool) :
    (h.endWrite length error).currentReservation = h.currentReservation ∧
    (h.endWrite length error).currentPart = h.currentPart ∧
    (h.endWrite length error).writeInProgress = false ∧
    (h.endWrite length error).life = h.life := by
  cases error with
  | false | true => exact ⟨rfl, rfl, rfl, rfl⟩

lemma write_ends (h' : Handle) {error} (r : Ready h w slot)
    (moves : (w.owns && w.moves c .done) = true) (progress : h.writeInProgress = true)
    (gives : effect.gives = true) (life : h'.life = h.life) (part : h'.Backed)
    (units : h'.currentReservation.toNat + effect.given = w.units + h.currentReservation.toNat) :
    Fair c b slot h w ⟨h'.endWrite length error, .done, effect⟩ := by
  obtain ⟨reservation, bytes, ended, same⟩ := endWrite_spec h' length error
  obtain ⟨own, moves⟩ := (Bool.and_eq_true _ _ ▸ moves : _ ∧ _)
  obtain ⟨kind, taken, room⟩ := Effect.gives_spec gives
  have backed : (h'.endWrite length error).Backed := by
    rw [Handle.Backed, bytes, reservation]
    exact part
  refine .go r moves kind (.own own progress (same.trans life) backed) ?_ room ?_ trivial
    nofun nofun
  · rw [reservation, taken, ← units]
    exact congrArg (· + _) (Nat.zero_add _)
  · rw [own, progress, ended]
    rfl

lemma write_goes (r : Ready h w slot) (moves : (w.owns && w'.owns && w.moves c w') = true)
    (progress : h.writeInProgress = true) (kind : effect.ofWrite = true)
    (room : 0 < effect.taken → b.available c = true) (progress' : h'.writeInProgress = true)
    (life : h'.life = h.life) (part : h'.Backed)
    (units : w'.units + h'.currentReservation.toNat + effect.given =
      w.units + h.currentReservation.toNat + effect.taken)
    (backing : ∀ {v}, w'.backing = some v → h'.currentReservation = v) :
    Fair c b slot h w ⟨h', w', effect⟩ := by
  simp only [Bool.and_eq_true] at moves
  obtain ⟨⟨own, own'⟩, moves⟩ := moves
  obtain ⟨sound, unsettled, -⟩ := Work.owns_spec (c := c) own'
  refine .go r moves kind
    (.own own progress life part) units room ?_ sound backing fun settling => ?_
  · rw [own, own', progress, progress']
  · cases unsettled.symm.trans settling

lemma backed_of_reservation (reserved : h.currentReservation = true) : h.Backed := fun _ => reserved

lemma takePart_backed (h : Handle) : h.takePart.Backed := fun bytes => absurd rfl bytes

variable {stopping : Bool}

/-- It is submitted with its memory, or it is lost and its memory is still to be given back. -/
lemma submitCurrentPart_spec {fault threw} (reserved : h.currentReservation = true)
    (ran : submitCurrentPart c stopping h fault = (h', effect, threw)) :
    h'.currentReservation.toNat + effect.given + threw.toNat = 1 ∧ effect.gives = true ∧
      h'.Backed ∧ h'.life = h.life ∧ h'.writeInProgress = h.writeInProgress ∧
      (threw = true → effect = .none) := by
  rw [submitCurrentPart] at ran
  split at ran
  · split at ran
    · obtain ⟨rfl, rfl, rfl⟩ := ran
      exact ⟨rfl, rfl, takePart_backed h, rfl, rfl, nofun⟩
    · obtain ⟨rfl, rfl, rfl⟩ := ran
      exact ⟨rfl, rfl, takePart_backed h, rfl, rfl, fun _ => rfl⟩
  · obtain ⟨rfl, rfl, rfl⟩ := ran
    rw [reserved]
    exact ⟨rfl, rfl, backed_of_reservation reserved, rfl, rfl, nofun⟩

section
variable (r : Ready h w slot) (moves : (w.owns && w'.owns && w.moves c w') = true)
  (progress : h.writeInProgress = true) (reserved : h.currentReservation = true)
include r moves progress reserved

lemma submit_goes {count fault threw}
    (ran : submitCurrentPart c stopping (h.retain count) fault = (h', effect, threw))
    (units : w'.units = w.units + threw.toNat) (backing : w'.backing = none) :
    Fair c b slot h w ⟨h', w', effect⟩ := by
  obtain ⟨sum, gives, part, life, same, -⟩ := submitCurrentPart_spec (h := h.retain count)
    reserved ran
  obtain ⟨kind, taken, room⟩ := Effect.gives_spec gives
  refine write_goes r moves progress kind room (same.trans progress) life part ?_
    fun some => absurd (backing.symm.trans some) nofun
  rw [units, taken, reserved]
  show _ = w.units + 1 + 0
  omega

lemma submit_throws {count fault}
    (ran : submitCurrentPart c stopping (h.retain count) fault = (h', effect, true))
    (units : w'.units = w.units + 1) (backing : w'.backing = none) :
    Fair c b slot h w ⟨h', w', .none⟩ := by
  obtain ⟨-, -, -, -, -, threw⟩ := submitCurrentPart_spec (h := h.retain count) reserved ran
  rw [threw rfl] at ran
  exact submit_goes r moves progress reserved ran units backing

end

lemma open_available (free : b.open? c = true) : b.available c = true := by
  rw [Budget.open?, Bool.and_eq_true] at free
  exact free.1

/-- A step that is not the write's own and keeps what nobody has reserved. -/
lemma Fair.settle (r : Ready h w slot)
    (moves : (w.moves c w' && !w.owns && !w'.owns && w'.backing.isNone) = true)
    (gives : effect.gives = true) (leaves : Leaves c w h h')
    (units : w'.units + h'.currentReservation.toNat + effect.given =
      w.units + h.currentReservation.toNat)
    (progress : h'.writeInProgress = h.writeInProgress) (sound : w'.Sound)
    (settling : w'.settling = true → h'.Settled) : Fair c b slot h w ⟨h', w', effect⟩ := by
  simp only [Bool.and_eq_true, Bool.not_eq_true', Option.isNone_iff_eq_none] at moves
  obtain ⟨⟨⟨moves, own⟩, own'⟩, backing⟩ := moves
  obtain ⟨kind, taken, room⟩ := Effect.gives_spec gives
  refine .go r moves kind leaves ?_ room ?_ sound ?_ settling
  · rw [taken]
    exact units
  · rw [own, own', progress]
  · exact fun some => absurd (backing.symm.trans some) nofun

lemma Fair.alike (r : Ready h w slot)
    (moves : (w.moves c w' && !w.owns && !w'.owns && w'.backing.isNone) = true)
    (gives : effect.gives = true) (a : Alike h h') (units : w'.units + effect.given = w.units)
    (sound : w'.Sound) (settling : w'.settling = true → h'.Settled) :
    Fair c b slot h w ⟨h', w', effect⟩ := by
  refine .settle r moves gives (a.leaves r.part) ?_ a.progress sound settling
  rw [← units, a.reservation]
  omega

/-- Without effect on the handle. -/
lemma Fair.stay (r : Ready h w slot) (moves : (w.moves c w' && !w.owns && !w'.owns &&
      w'.backing.isNone && !w'.settling) = true) (units : w'.units = w.units) (sound : w'.Sound) :
    Fair c b slot h w ⟨h, w', .none⟩ := by
  rw [Bool.and_eq_true, Bool.not_eq_true'] at moves
  refine .alike r moves.1 rfl (.refl h) units sound fun settling => ?_
  cases moves.2.symm.trans settling

/-- Both asynchronous writes start so. -/
lemma write_starts (r : Ready h w slot)
    (step : (if h.unlinked = true ∨ h.writeState ≠ .opened then some ⟨h, .done, .none⟩
      else if h.writeInProgress = true then some ⟨h, w, .none⟩
      else some ⟨{ h with writeInProgress := true }, w', .none⟩) = some n)
    (refused : Fair c b slot h w ⟨h, .done, .none⟩) (again : Fair c b slot h w ⟨h, w, .none⟩)
    (moves : (w.moves c w' && !w.owns && w'.owns && w'.backing.isNone) = true)
    (units : w'.units = w.units) : Fair c b slot h w n := by
  simp only [Bool.and_eq_true, Bool.not_eq_true', Option.isNone_iff_eq_none] at moves
  obtain ⟨⟨⟨moves, own⟩, own'⟩, backing⟩ := moves
  obtain ⟨sound, unsettled, -⟩ := Work.owns_spec (c := c) own'
  split_ifs at step with closed busy
  · cases step
    exact refused
  · cases step
    exact again
  · cases step
    have leaves : Leaves c w h { h with writeInProgress := true } :=
      ⟨fun _ _ => rfl, fun settled => absurd settled.1 fun no => closed (.inr no), rfl,
        fun _ => rfl, r.part⟩
    refine .go r moves rfl leaves ?_ nofun ?_ sound ?_ ?_
    · rw [units]
      rfl
    · rw [Bool.not_eq_true] at busy
      rw [own, own', busy]
      rfl
    · exact fun some => absurd (backing.symm.trans some) nofun
    · exact fun settling => absurd (unsettled.symm.trans settling) Bool.false_ne_true

lemma writeStep_fair {stage remaining}
    (r : Ready h (.write stage length remaining) slot) (progress : h.writeInProgress = true)
    (step : writeStep c b stopping h stage length remaining outcome = some n) :
    Fair c b slot h (.write stage length remaining) n := by
  -- a stage without effect on the handle
  have go {w' : Work} {effect : Effect}
      (moves : (w'.owns && (Work.write stage length remaining).moves c w') = true)
      (kind : effect.ofWrite = true) (room : 0 < effect.taken → b.available c = true)
      (units : w'.units + effect.given = (Work.write stage length remaining).units + effect.taken)
      (backing : ∀ {v}, w'.backing = some v → h.currentReservation = v) :
      Fair c b slot h (.write stage length remaining) ⟨h, w', effect⟩ :=
    write_goes r moves progress kind room progress rfl r.part (by omega) backing
  unfold writeStep at step
  dsimp only at step
  split at step
  case h_1 =>
    split at step
    · cases step
      exact go rfl rfl nofun rfl (Option.some.inj · ▸ ‹_›)
    · cases step
      exact go rfl rfl nofun rfl nofun
  case h_2 =>
    split at step
    · cases step
      exact go rfl rfl (fun _ => open_available ‹_›) rfl nofun
    · cases step
      exact go rfl rfl nofun rfl nofun
  case h_3 =>
    obtain ⟨served, ⟨⟩⟩ := Option.ite_none_right_eq_some.1 step
    exact go rfl rfl (fun _ => served.2) rfl nofun
  case h_4 =>
    split at step
    · cases step
      exact go rfl rfl nofun rfl nofun
    split at step
    · cases step
      exact go rfl rfl nofun rfl (Option.some.inj · ▸ ‹_›)
    · rename_i unreserved
      cases step
      -- the reservation goes from the thread to the handle
      refine write_goes r rfl progress rfl nofun progress rfl (backed_of_reservation rfl) ?_
        (Option.some.inj ·)
      rw [Bool.not_eq_true] at unreserved
      rw [unreserved]
      rfl
  case h_5 | h_9 =>
    cases step
    exact write_ends _ r rfl progress rfl rfl r.part (Nat.add_comm _ _)
  case h_6 =>
    cases step
    exact go rfl rfl nofun rfl (Option.some.inj · ▸ r.backing rfl)
  case h_7 count fault =>
    have reserved : h.currentReservation = true := r.backing rfl
    obtain ⟨-, step⟩ := Option.ite_none_right_eq_some.1 step
    split at step
    next ran =>
      cases step
      exact submit_throws r rfl progress reserved ran rfl rfl
    next ran =>
      split at step
      · obtain ⟨units, gives, part, life, -⟩ := submitCurrentPart_spec (h := h.retain count)
          reserved ran
        cases step
        refine write_ends _ r rfl progress gives life part ?_
        rw [reserved]
        exact units
      · cases step
        exact submit_goes r rfl progress reserved ran rfl rfl
  case h_8 count =>
    have reserved : h.currentReservation = true := r.backing rfl
    obtain ⟨-, ⟨⟩⟩ := Option.ite_none_right_eq_some.1 step
    exact write_ends (h.retain count) r rfl progress rfl rfl (backed_of_reservation reserved)
      (Nat.add_comm _ _)

lemma ownerWriteStep_fair {stage remaining} (r : Ready h (.ownerWrite stage length remaining) slot)
    (progress : (Work.ownerWrite stage length remaining).owns = true → h.writeInProgress = true)
    (step : ownerWriteStep c b stopping h stage length remaining outcome = some n) :
    Fair c b slot h (.ownerWrite stage length remaining) n := by
  unfold ownerWriteStep Handle.endOwnerWrite at step
  dsimp only at step
  split at step
  case h_1 =>
    exact write_starts r step (.stay r rfl rfl trivial) (.stay r rfl rfl trivial) rfl rfl
  case h_2 =>
    cases step
    exact .stay r rfl rfl trivial
  case h_3 =>
    have progress := progress rfl
    split at step
    · cases step
      exact write_ends _ r rfl progress rfl rfl r.part (Nat.add_comm _ _)
    split at step
    · cases step
      exact write_ends _ r rfl progress rfl rfl r.part (Nat.add_comm _ _)
    split at step
    · cases step
      exact write_goes r rfl progress rfl nofun progress rfl r.part rfl (Option.some.inj · ▸ ‹_›)
    rename_i unreserved
    rw [Bool.not_eq_true] at unreserved
    split at step
    · cases step
      refine write_goes r rfl progress rfl (fun _ => open_available ‹_›) progress rfl r.part ?_
        (Option.some.inj · ▸ unreserved)
      show 1 + _ + 0 = 0 + _ + 1
      omega
    · cases step
      exact write_goes r rfl progress rfl nofun progress rfl r.part rfl nofun
  case h_4 =>
    -- nobody else has set the flag since the write has found it unset
    have unreserved : h.currentReservation = false := r.backing rfl
    cases step
    refine write_goes r rfl (progress rfl) rfl nofun (progress rfl) rfl (backed_of_reservation rfl)
      ?_ (Option.some.inj ·)
    rw [unreserved]
    rfl
  case h_5 =>
    have reserved : h.currentReservation = true := r.backing rfl
    cases step
    exact write_goes r rfl (progress rfl) rfl nofun (progress rfl) rfl
      (backed_of_reservation reserved) rfl (Option.some.inj · ▸ reserved)
  case h_6 =>
    have reserved : h.currentReservation = true := r.backing rfl
    cases step
    exact write_ends (h.retain 0) r rfl (progress rfl) rfl rfl (backed_of_reservation reserved)
      (Nat.add_comm _ _)
  case h_7 count fault =>
    have reserved : h.currentReservation = true := r.backing rfl
    obtain ⟨-, step⟩ := Option.ite_none_right_eq_some.1 step
    split at step
    next ran =>
      cases step
      exact submit_throws r rfl (progress rfl) reserved ran rfl rfl
    next ran =>
      cases step
      exact submit_goes r rfl (progress rfl) reserved ran rfl rfl
  case h_8 =>
    cases step
    exact write_goes r rfl (progress rfl) rfl nofun (progress rfl) rfl r.part rfl nofun
  all_goals
    cases step
    exact write_ends _ r rfl (progress rfl) rfl rfl r.part (Nat.add_comm _ _)

lemma submitCachedPart_alike {sent fault}
    (ran : submitCachedPart c stopping h fault = (sent, h')) : Alike h h' := by
  rw [submitCachedPart] at ran
  split at ran
  · obtain ⟨rfl, rfl⟩ := ran
    exact .refl h
  split at ran
  all_goals
    obtain ⟨rfl, rfl⟩ := ran
    exact ⟨rfl, rfl, rfl, rfl, id⟩

lemma cachedWriteStep_fair {stage} (r : Ready h (.cachedWrite stage length) slot)
    (progress : (Work.cachedWrite stage length).owns = true → h.writeInProgress = true)
    (step : cachedWriteStep c stopping h stage length outcome = some n) :
    Fair c b slot h (.cachedWrite stage length) n := by
  unfold cachedWriteStep Handle.endOwnerWrite at step
  dsimp only at step
  split at step
  case h_1 =>
    exact write_starts r step (.stay r rfl rfl trivial) (.stay r rfl rfl trivial) rfl rfl
  case h_2 =>
    cases step
    exact .stay r rfl rfl trivial
  case h_3 =>
    cases step
    exact write_goes r rfl (progress rfl) rfl nofun (progress rfl) rfl r.part rfl nofun
  case h_4 =>
    cases step
    exact write_ends _ r rfl (progress rfl) rfl rfl r.part (Nat.add_comm _ _)
  case h_5 =>
    obtain ⟨-, step⟩ := Option.ite_none_right_eq_some.1 step
    split at step
    next ran =>
      have a := submitCachedPart_alike ran
      cases step
      refine write_goes r rfl (progress rfl) rfl nofun (a.progress.trans (progress rfl)) a.life
        (a.backed r.part) ?_ nofun
      rw [a.reservation]
      rfl
    next ran =>
      have a := submitCachedPart_alike ran
      cases step
      refine write_ends _ r rfl (progress rfl) rfl a.life (a.backed r.part) ?_
      rw [a.reservation]
      exact Nat.add_comm _ _
  case h_6 =>
    split at step
    · cases step
    · cases step
      exact write_ends _ r rfl (progress rfl) rfl rfl r.part (Nat.add_comm _ _)

/-! ### Flushes -/

lemma tail_reserved (part : h.Backed) (bytes : tail h = .submit) : h.currentReservation = true := by
  rw [tail] at bytes
  split at bytes
  · exact part ‹_›
  · split at bytes <;> cases bytes

lemma Leaves.settling (settled : h.Settled) (guards : w.guards c = true) (life : h'.life = h.life)
    (state : h'.writeState = h.writeState) (progress : h'.writeInProgress = h.writeInProgress)
    (part : h'.Backed) : Leaves c w h h' := by
  refine ⟨fun _ busy => ?_, fun _ => ?_, life, fun no => ?_, part⟩
  · rw [settled.2] at busy
    cases busy
  · exact ⟨state ▸ settled.1, progress ▸ settled.2⟩
  · rw [guards] at no
    cases no

lemma Leaves.takePart (settled : h.Settled) (guards : w.guards c = true) :
    Leaves c w h h.takePart :=
  .settling settled guards rfl rfl rfl (takePart_backed h)

lemma tail_giveBack (kind : tail h = .giveBack) :
    h.currentReservation = true ∧ ¬ h.currentPart.getD 0 ≠ 0 := by
  rw [tail] at kind
  split at kind
  · cases kind
  · rename_i empty
    split at kind
    · exact ⟨‹_›, empty⟩
    · cases kind

section
variable {stage : FlushStage} {ownsSeal partsPrepared reserved : Bool} {attempt : Nat}

lemma flush_finishing {error}
    (r : Ready h (.flush ⟨.finishing error, ownsSeal, partsPrepared, reserved, attempt⟩) slot) :
    Fair c b slot h (.flush ⟨.finishing error, ownsSeal, partsPrepared, reserved, attempt⟩)
      ⟨h, .flush ⟨.freed error, ownsSeal, partsPrepared, false, attempt⟩,
        if reserved then .release else .none⟩ := by
  cases reserved with
  | false => exact .stay r rfl rfl ⟨nofun, rfl⟩
  | true => exact .alike r rfl rfl (.refl h) rfl ⟨nofun, rfl⟩ nofun

lemma flush_freed {error}
    (r : Ready h (.flush ⟨.freed error, ownsSeal, partsPrepared, reserved, attempt⟩) slot) :
    Fair c b slot h (.flush ⟨.freed error, ownsSeal, partsPrepared, reserved, attempt⟩)
      ⟨h, .flush ⟨.telling error, ownsSeal, partsPrepared, reserved, attempt⟩,
        if slot then .finishUpload else .none⟩ := by
  have leaves := (Alike.refl h).leaves (c := c)
    (w := .flush ⟨.freed error, ownsSeal, partsPrepared, reserved, attempt⟩) r.part
  have ready : Ready h
      (.flush ⟨.telling error, ownsSeal, partsPrepared, reserved, attempt⟩) false :=
    ⟨r.sound, r.part, nofun, nofun, nofun, nofun⟩
  cases slot with
  | false =>
    exact ⟨rfl, nofun, rfl, leaves, nofun, ready, ⟨⟨nofun, nofun⟩, nofun⟩, nofun,
      fun _ => rfl, nofun⟩
  | true =>
    exact ⟨rfl, nofun, rfl, leaves, fun _ => rfl, ready, ⟨⟨nofun, nofun⟩, nofun⟩,
      nofun, fun _ => rfl,
      nofun⟩

lemma flushStep_fair {stopping outcome n}
    (r : Ready h (.flush ⟨stage, ownsSeal, partsPrepared, reserved, attempt⟩) slot)
    (step : flushStep c stopping slot h ⟨stage, ownsSeal, partsPrepared, reserved, attempt⟩
      outcome = some n) :
    Fair c b slot h (.flush ⟨stage, ownsSeal, partsPrepared, reserved, attempt⟩) n := by
  unfold flushStep at step
  dsimp only at step
  split at step
  case h_1 =>
    have a : Alike h { h with writeState := .sealing } := ⟨rfl, rfl, rfl, rfl, fun _ => nofun⟩
    split at step
    · cases step
      exact .stay r rfl rfl ⟨r.sound.1, trivial⟩
    split at step
    · cases step
      exact .stay r rfl rfl ⟨r.sound.1, trivial⟩
    cases step
    split
    · split
      all_goals exact .alike r rfl rfl a rfl ⟨r.sound.1, trivial⟩ nofun
    rename_i mine
    split
    · exact .alike r rfl rfl a rfl ⟨r.sound.1, trivial⟩ nofun
    · rename_i unprepared
      have idle : h.writeInProgress = false := by
        simp only [Bool.or_eq_true, not_or, Bool.not_eq_true] at mine
        exact mine.2
      exact .alike r rfl rfl a rfl ⟨r.sound.1, by simpa using unprepared⟩
        fun _ => ⟨nofun, idle⟩
  case h_2 fault =>
    obtain rfl : partsPrepared = false := r.sound.2
    obtain rfl : reserved = false := by simpa using r.sound.1
    have settled : h.Settled := r.settled rfl
    split at step
    · obtain ⟨-, step⟩ := Option.ite_none_right_eq_some.1 step
      split at step
      next ran =>
        have a := submitCachedPart_alike ran
        cases step
        exact .alike r rfl rfl a rfl r.sound fun _ => a.settled settled
      next ran =>
        cases step
        exact .alike r rfl rfl (submitCachedPart_alike ran) rfl ⟨nofun, trivial⟩ nofun
    obtain ⟨multipart, step⟩ := Option.ite_none_right_eq_some.1 step
    have taken : h.currentReservation = true := tail_reserved r.part multipart.2
    split at step
    · cases step
      refine .settle r rfl rfl (.settling settled rfl rfl rfl rfl (takePart_backed h)) ?_ rfl
        ⟨nofun, trivial⟩ nofun
      rw [taken]
      rfl
    · cases step
      refine .settle r rfl rfl (.takePart settled rfl) ?_ rfl ⟨nofun, rfl⟩ nofun
      rw [taken]
      rfl
  case h_3 =>
    obtain rfl : partsPrepared = false := r.sound.2
    obtain rfl : reserved = false := by simpa using r.sound.1
    have settled : h.Settled := r.settled rfl
    split at step
    · split at step
      · cases step
      · cases step
        exact .stay r rfl rfl ⟨nofun, trivial⟩
    split at step
    · cases step
      -- the memory of the part goes from the handle to the flush
      refine .settle r rfl rfl (.takePart settled rfl) ?_ rfl ⟨fun _ => rfl, trivial⟩ nofun
      show 0 + h.currentReservation.toNat + 0 + 0 + 0 = 0 + _
      omega
    split at step
    · cases step
    · obtain ⟨flag, none⟩ := tail_giveBack ‹_›
      cases step
      refine .settle r rfl rfl (.settling settled rfl rfl rfl rfl fun bytes =>
        absurd bytes none) ?_ rfl
        ⟨nofun, rfl⟩ nofun
      rw [flag]
      rfl
    · cases step
      exact .stay r rfl rfl ⟨nofun, trivial⟩
  case h_4 =>
    cases step
    exact .settle r rfl rfl (.settling (r.settled rfl) rfl rfl rfl rfl fun bytes =>
      absurd rfl bytes)
      rfl rfl ⟨r.sound.1, trivial⟩ nofun
  case h_5 =>
    cases step
    exact .alike r rfl rfl (.refl h) rfl ⟨r.sound.1, trivial⟩ nofun
  case h_6 =>
    cases step
    exact .alike r rfl rfl (.refl h) rfl ⟨fun _ => rfl, trivial⟩ nofun
  case h_7 =>
    split at step
    all_goals
      cases step
      exact .stay r rfl rfl ⟨r.sound.1, trivial⟩
  case h_8 =>
    cases step
    have fresh : slot = false := r.fresh rfl
    refine ⟨rfl, nofun, rfl, (Alike.refl h).leaves r.part, nofun, ?_, ⟨⟨fun _ => ⟨_, rfl⟩, fun _ =>
      rfl⟩, fun _ => rfl⟩,
      fun _ => rfl, fun _ => rfl, nofun⟩
    exact ⟨⟨r.sound.1, trivial⟩, r.part, nofun, nofun, fun _ => rfl, fun _ => by rw [fresh]; rfl⟩
  case h_9 => cases step
  case h_10 | h_16 =>
    split at step
    all_goals
      cases step
      exact .stay r rfl rfl ⟨r.sound.1, trivial⟩
  case h_20 =>
    cases step
    exact flush_finishing r
  case h_21 =>
    cases step
    exact flush_freed r
  case h_22 error =>
    obtain rfl : reserved = false := r.sound.2
    cases step
    -- the handle is sealed or has failed
    have a : Alike h (if !ownsSeal then h
        else if (error || h.unlinked || h.writeState == .failed) then h.failWrite
        else { h with writeState := .sealed }) := by
      split
      · exact .refl h
      · split
        · exact .failWrite h
        · exact ⟨rfl, rfl, rfl, rfl, fun _ => nofun⟩
    exact .alike r rfl rfl a rfl trivial nofun
  all_goals
    cases step
    exact .stay r rfl rfl ⟨r.sound.1, trivial⟩

end

section
variable {stage : SealStage} {reserved : Bool}

lemma sealStep_fair {stopping outcome n} (r : Ready h (.sealWrite stage reserved) slot)
    (step : sealStep c stopping h stage reserved outcome = some n) :
    Fair c b slot h (.sealWrite stage reserved) n := by
  unfold sealStep at step
  dsimp only at step
  split at step
  case h_7 | h_8 =>
    cases step
    exact .stay r rfl rfl trivial
  case h_9 =>
    cases step
    cases reserved with
    | false => exact .stay r rfl rfl rfl
    | true => exact .alike r rfl rfl (.refl h) rfl rfl nofun
  -- only a put has memory of its own
  all_goals obtain rfl : reserved = false := r.sound
  case h_1 =>
    split at step
    · cases step
    rename_i idle
    rw [not_or, Bool.not_eq_true] at idle
    split at step
    · cases step
      have a : Alike h { h with writeState := .sealing } := ⟨rfl, rfl, rfl, rfl, fun _ => nofun⟩
      exact .alike r rfl rfl a rfl rfl fun _ => ⟨nofun, idle.1⟩
    · cases step
      exact .stay r rfl rfl trivial
  case h_2 fault =>
    have settled : h.Settled := r.settled rfl
    split at step
    · obtain ⟨-, step⟩ := Option.ite_none_right_eq_some.1 step
      split at step
      next ran =>
        have a := submitCachedPart_alike ran
        cases step
        exact .alike r rfl rfl a rfl rfl fun _ => a.settled settled
      next ran =>
        cases step
        exact .alike r rfl rfl (submitCachedPart_alike ran) rfl rfl nofun
    obtain ⟨multipart, step⟩ := Option.ite_none_right_eq_some.1 step
    have taken : h.currentReservation = true := tail_reserved r.part multipart.2
    split at step
    · cases step
      refine .settle r rfl rfl
        (.settling settled rfl rfl rfl rfl (takePart_backed h)) ?_ rfl rfl nofun
      rw [taken]
      rfl
    · cases step
      refine .settle r rfl rfl (.takePart settled rfl) ?_ rfl rfl nofun
      rw [taken]
      rfl
  case h_3 =>
    have settled : h.Settled := r.settled rfl
    split at step
    · split at step
      · split at step
        · cases step
        · cases step
          exact .stay r rfl rfl rfl
      · cases step
        exact .stay r rfl rfl trivial
    split at step
    · cases step
      refine .settle r rfl rfl (.takePart settled rfl) ?_ rfl trivial nofun
      show 0 + h.currentReservation.toNat + 0 + 0 + 0 = 0 + _
      omega
    split at step
    · cases step
    · obtain ⟨flag, none⟩ := tail_giveBack ‹_›
      cases step
      refine .settle r rfl rfl (.settling settled rfl rfl rfl rfl fun bytes =>
        absurd bytes none) ?_ rfl
        rfl nofun
      rw [flag]
      rfl
    · cases step
      exact .stay r rfl rfl rfl
  case h_4 =>
    cases step
    exact .settle r rfl rfl (.settling (r.settled rfl) rfl rfl rfl rfl fun bytes =>
      absurd rfl bytes)
      rfl rfl rfl nofun
  case h_5 | h_6 =>
    cases step
    exact .alike r rfl rfl (.refl h) rfl rfl nofun
  case h_10 =>
    split at step
    · cases step
      exact .stay r rfl rfl rfl
    obtain ⟨-, ⟨⟩⟩ := Option.ite_none_right_eq_some.1 step
    exact .stay r rfl rfl rfl
  case h_11 | h_15 =>
    cases step
    exact .stay r rfl rfl rfl
  case h_12 =>
    cases step
    have a : Alike h { h with writeState := .sealed } := ⟨rfl, rfl, rfl, rfl, fun _ => nofun⟩
    exact .alike r rfl rfl a rfl trivial nofun
  case h_13 =>
    cases step
    exact .alike r rfl rfl (.failWrite h) rfl trivial nofun
  case h_14 => cases step

end

lemma advance_fair (r : Ready h w slot) (progress : w.owns = true → h.writeInProgress = true)
    (step : advance c b stopping slot h w outcome = some n) : Fair c b slot h w n := by
  cases w with
  | write stage length remaining => exact writeStep_fair r (progress rfl) step
  | ownerWrite stage length remaining => exact ownerWriteStep_fair r progress step
  | cachedWrite stage length => exact cachedWriteStep_fair r progress step
  | part p => exact partStep_fair r step
  | flush f => exact flushStep_fair r step
  | sealWrite stage reserved => exact sealStep_fair r step
  | retire budget =>
    cases step
    have leaves : Leaves c (.retire budget) h h := (Alike.refl h).leaves r.part
    obtain rfl := r.unslotted rfl
    have ready : Ready h .done false := ⟨trivial, r.part, nofun, nofun, nofun, nofun⟩
    cases budget with
    | false => exact ⟨rfl, nofun, rfl, leaves, nofun, ready, ⟨⟨nofun, nofun⟩, nofun⟩, nofun, nofun,
        nofun⟩
    | true =>
      refine ⟨?_, nofun, rfl, leaves, nofun, ready, ⟨⟨nofun, nofun⟩, nofun⟩, nofun, nofun, nofun⟩
      show 0 + h.currentReservation.toNat + 1 = 1 + h.currentReservation.toNat + 0
      omega
  | done => cases step

end

end Ngs3fs.Parts
