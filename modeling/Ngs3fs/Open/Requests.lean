import Mathlib.Data.Nat.Bitwise
import Ngs3fs.Lib.Machine

/-!
# Retiring an open handle

`request_state` of an `OpenHandle` counts the application's handle and the requests that work on it;
above the count it has the flags `kOpenPublished` and `kClosing`. The constructors of
`OpenRequestGuard` compare and exchange a value they have loaded before, which may be any, and a
copy is made of a guard that is alive. Closing sets the callback, then the flag, and later the
reference of the application is dropped. -/

namespace Ngs3fs.Open
open Machine Nat

def kOpenPublished : Nat := 2 ^ 62
def kOpenRequestMask : Nat := kOpenPublished - 1
def kClosing : Nat := 2 ^ 63

/-- One more and one less in a `uint64_t`. -/
def increment (state : Nat) : Nat := if state = 2 ^ 64 - 1 then 0 else state + 1
def decrement (state : Nat) : Nat := if state = 0 then 2 ^ 64 - 1 else state - 1

/-- The handle's word, who has a reference, and how many requests have been admitted and calls of
`release_ready` made so far. -/
structure Lifetime where
  requestState : Nat
  application : Bool
  guards : Nat
  admitted : Nat
  retired : Nat

inductive LifetimeEvent
  | publish
  | request (state : Nat)
  | copy (state : Nat)
  | destroy
  | close
  | release

namespace Lifetime

def start : Lifetime := ⟨1, true, 0, 0, 0⟩

/-- `drop_open_request`. -/
def dropOpenRequest (h : Lifetime) : Lifetime :=
  { h with
    requestState := decrement h.requestState
    retired :=
      if h.requestState &&& kClosing ≠ 0 ∧ h.requestState &&& kOpenRequestMask =
        1 then h.retired + 1
      else h.retired }

/-- `publish_open_handle` and `OpenRequestGuard`. -/
def step (h : Lifetime) : LifetimeEvent → Option Lifetime
  | .publish => some { h with requestState := h.requestState ||| kOpenPublished }
  | .request state =>
    if state &&& kClosing ≠ 0 then some h
    else if state &&& kOpenRequestMask = kOpenRequestMask then some h
    else if h.requestState = state then
      some { h with
        requestState := increment state, guards := h.guards + 1, admitted := h.admitted + 1 }
    else some h
  | .copy state =>
    if h.guards = 0 then none
    else if state &&& kOpenRequestMask = kOpenRequestMask then some h
    else if h.requestState = state then
      some { h with requestState := increment state, guards := h.guards + 1 }
    else some h
  | .destroy =>
    if h.guards = 0 then none else some { h with guards := h.guards - 1 }.dropOpenRequest
  | .close =>
    if h.requestState &&& kClosing ≠ 0 then none
    else some { h with requestState := h.requestState ||| kClosing }
  | .release =>
    if h.application = true ∧ h.requestState &&& kClosing ≠ 0 then
      some { h with application := false }.dropOpenRequest
    else none

end Lifetime

/-- The flags and the count in one word. -/
def word (published closing : Bool) (count : Nat) : Nat :=
  2 ^ 62 * (2 * closing.toNat + published.toNat) + count

section
variable {published closing : Bool} {count : Nat} (fits : count < 2 ^ 62)
include fits

lemma word_eq_or : word published closing count =
    2 ^ 62 * (2 * closing.toNat + published.toNat) ||| count :=
  two_pow_add_eq_or_of_lt fits _

lemma word_mask : word published closing count &&& kOpenRequestMask = count := by
  rw [kOpenRequestMask, kOpenPublished, and_two_pow_sub_one_eq_mod, word, mul_add_mod,
    mod_eq_of_lt fits]

lemma word_closing : word published closing count &&& kClosing ≠ 0 ↔ closing = true := by
  have bit : count.testBit 63 = false :=
    testBit_lt_two_pow (fits.trans (Nat.pow_lt_pow_right (by decide) (by decide)))
  rw [word_eq_or fits, kClosing, and_or_distrib_right, and_two_pow count, bit]
  cases published <;> cases closing <;> decide

lemma word_publish : word published closing count ||| kOpenPublished = word true closing count := by
  rw [word_eq_or fits, word_eq_or fits, Nat.or_right_comm]
  cases published <;> cases closing <;> rfl

lemma word_close : word published closing count ||| kClosing = word published true count := by
  rw [word_eq_or fits, word_eq_or fits, Nat.or_right_comm]
  cases published <;> cases closing <;> rfl

end

lemma word_drop (published closing : Bool) (count : Nat) :
    decrement (word published closing (count + 1)) = word published closing count :=
  if_neg (succ_ne_zero _)

lemma word_succ {published closing count} (fits : count + 1 < 2 ^ 62) :
    increment (word published closing count) = word published closing (count + 1) := by
  refine if_neg fun full => ?_
  rw [word] at full
  have := Bool.toNat_le published
  have := Bool.toNat_le closing
  omega

namespace Lifetime
variable {h h' : Lifetime} {published closing : Bool} {count : Nat}

/-- The count is that of the references, and the last one to go retires the handle. -/
structure Counts (h : Lifetime) (published closing : Bool) (count : Nat) : Prop where
  total : h.application.toNat + h.guards = count
  word : h.requestState = word published closing count
  fits : count < 2 ^ 62
  closes : h.application = false → closing = true
  retired : h.retired = if closing = true ∧ count = 0 then 1 else 0

lemma Counts.closing_iff (counts : h.Counts published closing count) :
    h.requestState &&& kClosing ≠ 0 ↔ closing = true := by
  rw [counts.word]
  exact word_closing counts.fits

lemma Counts.drop (counts : h.Counts published closing (count + 1)) {g : Lifetime}
    (word : g.requestState = h.requestState) (retired : g.retired = h.retired)
    (total : g.application.toNat + g.guards = count)
    (closes : g.application = false → closing = true) :
    g.dropOpenRequest.Counts published closing count := by
  have last : g.requestState &&& kClosing ≠ 0 ∧ g.requestState &&& kOpenRequestMask = 1 ↔
      closing = true ∧ count = 0 := by
    rw [word, counts.closing_iff, counts.word, word_mask counts.fits, Nat.add_eq_right]
  refine ⟨total, ?_, lt_of_succ_lt counts.fits, closes, ?_⟩
  · show decrement g.requestState = _
    rw [word, counts.word, word_drop]
  · have old : g.retired = 0 := retired.trans (counts.retired.trans (if_neg nofun))
    show (if _ then g.retired + 1 else g.retired) = _
    rw [old]
    exact if_congr last rfl rfl

lemma Counts.add (counts : h.Counts published closing count)
    (room : ¬ h.requestState &&& kOpenRequestMask = kOpenRequestMask)
    (alive : closing = true → 0 < count) {admitted} :
    Counts { h with
      requestState := increment h.requestState, guards := h.guards + 1, admitted }
      published closing (count + 1) := by
  have fits : count + 1 < 2 ^ 62 := by
    rw [counts.word, word_mask counts.fits, kOpenRequestMask, kOpenPublished] at room
    have := counts.fits
    omega
  refine ⟨congrArg (· + 1) counts.total, ?_, fits, counts.closes, ?_⟩
  · show increment h.requestState = _
    rw [counts.word, word_succ fits]
  · refine counts.retired.trans ((if_neg fun none => ?_).trans (if_neg nofun).symm)
    exact absurd none.2 (alive none.1).ne'

/-- A step keeps the counts, and after closing it admits nobody. -/
lemma Counts.step {e} (counts : h.Counts published closing count)
    (steps : h.step e = some h') : ∃ published' closing' count',
      h'.Counts published' closing' count' ∧
      (closing = true → closing' = true ∧ h'.admitted = h.admitted) := by
  have same : ∃ published' closing' count', h.Counts published' closing' count' ∧
      (closing = true → closing' = true ∧ h.admitted = h.admitted) :=
    ⟨_, _, _, counts, fun closed => ⟨closed, rfl⟩⟩
  cases e with
  | publish =>
    cases steps
    refine ⟨true, _, _, { counts with word := ?_ },
      fun closed => ⟨closed, rfl⟩⟩
    exact (congrArg (· ||| kOpenPublished) counts.word).trans (word_publish counts.fits)
  | request state =>
    simp only [Lifetime.step] at steps
    split at steps
    · cases steps
      exact same
    rename_i admits
    split at steps
    · cases steps
      exact same
    split at steps
    · rename_i room found
      cases steps
      subst found
      rw [counts.closing_iff] at admits
      exact ⟨_, _, _, counts.add room (absurd · admits), (absurd · admits)⟩
    · cases steps
      exact same
  | copy state =>
    simp only [Lifetime.step] at steps
    split at steps
    · cases steps
    rename_i alive
    split at steps
    · cases steps
      exact same
    split at steps
    · rename_i room found
      cases steps
      subst found
      refine ⟨_, _, _, counts.add room fun _ => ?_, fun closed => ⟨closed, rfl⟩⟩
      rw [← counts.total]
      exact Nat.lt_add_left _ (Nat.pos_of_ne_zero alive)
    · cases steps
      exact same
  | destroy =>
    simp only [Lifetime.step] at steps
    split at steps
    · cases steps
    rename_i alive
    cases steps
    obtain ⟨guards, more⟩ := exists_eq_succ_of_ne_zero alive
    obtain rfl : h.application.toNat + guards + 1 = count := by rw [← counts.total, more]; rfl
    refine ⟨_, _, _, counts.drop rfl rfl ?_ counts.closes, fun closed => ⟨closed, rfl⟩⟩
    show h.application.toNat + (h.guards - 1) = _
    rw [more]
    rfl
  | close =>
    simp only [Lifetime.step] at steps
    split at steps
    · cases steps
    rename_i opened
    rw [counts.closing_iff, Bool.not_eq_true] at opened
    cases steps
    subst opened
    refine ⟨published, true, _, ⟨counts.total, ?_, counts.fits, fun _ => rfl, ?_⟩, nofun⟩
    · exact (congrArg (· ||| kClosing) counts.word).trans (word_close counts.fits)
    · refine (counts.retired.trans (if_neg nofun)).trans (if_neg fun none => ?_).symm
      -- the application has its reference as long as the handle is not closing
      cases application : h.application with
      | false => exact Bool.noConfusion (counts.closes application)
      | true =>
        have total := counts.total
        rw [none.2, application] at total
        exact succ_ne_zero h.guards ((Nat.add_comm _ _).trans total)
  | release =>
    obtain ⟨closed, ⟨⟩⟩ := Option.ite_none_right_eq_some.1 steps
    rw [counts.closing_iff] at closed
    obtain rfl : h.guards + 1 = count := by
      rw [← counts.total, closed.1]
      exact Nat.add_comm _ _
    exact ⟨_, _, _, counts.drop rfl rfl (Nat.zero_add _) fun _ => closed.2,
      fun closed => ⟨closed, rfl⟩⟩

/-- **Retirement of a handle.** In every run the word is the flags and the number of references,
with no carry between them; `release_ready` has been called once if the handle is closing and nobody
has a reference, and else not at all; and from the time the handle is closing no request is
admitted. -/
theorem handle_retired_once (events later : List LifetimeEvent) (h h' : Lifetime)
    (ran : run step start events = some h) (goes : run step h later = some h') :
    ∃ published closing, h.requestState = word published closing (h.application.toNat + h.guards) ∧
      h.application.toNat + h.guards < 2 ^ 62 ∧
      (h.retired =
        if h.requestState &&& kClosing ≠ 0 ∧ h.application = false ∧ h.guards = 0 then 1 else 0) ∧
      (h.requestState &&& kClosing ≠ 0 → h'.admitted = h.admitted) := by
  have first : start.Counts false false 1 := ⟨rfl, rfl, by decide, nofun, rfl⟩
  have counted : ∃ published closing count, h.Counts published closing count := by
    refine run_inv (I := fun h => ∃ published closing count, h.Counts published closing count)
      (fun _ _ _ ⟨_, _, _, counts⟩ steps => ?_) ⟨_, _, _, first⟩ ran
    obtain ⟨published, closing, count, counts, -⟩ := counts.step steps
    exact ⟨published, closing, count, counts⟩
  obtain ⟨published, closing, count, counts⟩ := counted
  obtain rfl := counts.total
  refine ⟨published, closing, counts.word, counts.fits, ?_, fun closed => ?_⟩
  · rw [counts.retired]
    simp only [Nat.add_eq_zero_iff, Bool.toNat_eq_zero, counts.closing_iff]
  · obtain rfl := counts.closing_iff.1 closed
    have kept : ∃ published count, h'.Counts published true count ∧ h'.admitted = h.admitted := by
      refine run_inv (I := fun g => ∃ published count, g.Counts published true count ∧
        g.admitted = h.admitted) (fun _ _ _ ⟨_, _, counts, same⟩ steps =>
          ?_) ⟨_, _, counts, rfl⟩ goes
      obtain ⟨published, closing, count, counts, kept⟩ := counts.step steps
      obtain ⟨closed, still⟩ := kept rfl
      exact ⟨published, count, closed ▸ counts, still.trans same⟩
    obtain ⟨-, -, -, same⟩ := kept
    exact same

theorem handle_retired_once_copied :
    ∃ h h', run step start [.publish, .request (2 ^ 62 + 1), .close, .release,
        .copy (2 ^ 63 + 2 ^ 62 + 1), .destroy] = some h ∧
      run step h [.request (2 ^ 63 + 2 ^ 62 + 1), .destroy] = some h' ∧
      h.retired = 0 ∧ h'.retired = 1 ∧ h'.admitted = h.admitted := by
  refine ⟨_, _, rfl, rfl, rfl, rfl, ?_⟩
  obtain ⟨-, -, -, -, -, kept⟩ := handle_retired_once
    [.publish, .request (2 ^ 62 + 1), .close, .release, .copy (2 ^ 63 + 2 ^ 62 + 1), .destroy]
    [.request (2 ^ 63 + 2 ^ 62 + 1), .destroy] _ _ rfl rfl
  exact kept (by decide)

end Lifetime

end Ngs3fs.Open
