import Mathlib.Data.List.Count

/-!
# Waiters of a counting semaphore

Waiters with conditions of their own share one semaphore. A notification adds a token for every
registered waiter; a waiter takes any token, looks at its condition and may wait again. The tokens
are not addressed, so they have to go to those who were waiting when they were sent (`notified`).
`Covered` is the invariant: every blocked waiter whose condition holds was notified, and there is a
token for every notified one that is still blocked. -/

namespace Wake
open List

structure Waiter (κ : Type*) where
  key : κ
  /-- it has not taken a token yet -/
  blocked : Bool
  /-- a notification was sent since it began to wait -/
  notified : Bool
  deriving DecidableEq

variable {κ : Type*}

def Waiter.due (w : Waiter κ) : Bool := w.blocked && w.notified

def Waiter.new (key : κ) : Waiter κ := ⟨key, true, false⟩

def notifyAll (ws : List (Waiter κ)) :
    List (Waiter κ) := ws.map fun w => { w with notified := true }

def notifyIf (c : Bool) (ws : List (Waiter κ)) : List (Waiter κ) := if c then notifyAll ws else ws

@[simp] lemma length_notifyIf (c : Bool) (ws : List (Waiter κ)) :
    (notifyIf c ws).length = ws.length := by
  cases c with
  | true => exact length_map _
  | false => rfl

def wakeAt (i : Nat) (ws : List (Waiter κ)) : List (Waiter κ) :=
  ws.modify i fun w => { w with blocked := false }

structure Covered (ready : κ → Prop) (tokens : Nat) (ws : List (Waiter κ)) : Prop where
  due_le : ws.countP Waiter.due ≤ tokens
  aware : ∀ w ∈ ws, w.blocked = true → ready w.key → w.notified = true

/-- It was notified, or nobody who was is still blocked. -/
def Entitled (ws : List (Waiter κ)) (i : Nat) : Prop :=
  (∃ w, ws[i]? = some w ∧ w.notified = true) ∨ ∀ w ∈ ws, w.due = false

variable {ready ready' : κ → Prop} {tokens tokens' : Nat} {ws : List (Waiter κ)}

lemma covered_nil (ready : κ → Prop) (tokens : Nat) : Covered ready tokens [] :=
  ⟨Nat.zero_le _, forall_mem_nil _⟩

variable {w : Waiter κ}

/-- Nobody who could go on is stranded. -/
lemma Covered.token (h : Covered ready tokens ws) (mem : w ∈ ws) (blocked : w.blocked = true)
    (goes : ready w.key) : 0 < tokens := by
  have notified := h.aware w mem blocked goes
  have due : w.due = true := by rw [Waiter.due, blocked, notified]; rfl
  exact Nat.lt_of_lt_of_le (countP_pos_iff.2 ⟨w, mem, due⟩) h.due_le

/-- After a notification any condition may hold. -/
lemma Covered.notify (enough : ws.length ≤ tokens) : Covered ready tokens (notifyAll ws) := by
  refine ⟨?_, fun w mem _ _ => ?_⟩
  · have all : (notifyAll ws).length = ws.length := length_map _
    exact Nat.le_trans countP_le_length (all ▸ enough)
  · obtain ⟨v, -, rfl⟩ := mem_map.1 mem
    rfl

section
variable (h : Covered ready tokens ws)
include h

/-- A change that lets nobody go on who could not before needs no notification. -/
lemma Covered.quiet (le : tokens ≤ tokens')
    (harder : ∀ w ∈ ws, w.blocked = true → ready' w.key → ready w.key) :
    Covered ready' tokens' ws :=
  ⟨Nat.le_trans h.due_le le, fun w mem blocked goes =>
    h.aware w mem blocked (harder w mem blocked goes)⟩

/-- Nor does a change that finds every blocked waiter notified. -/
lemma Covered.allDue (le : tokens ≤ tokens')
    (due : ∀ w ∈ ws, w.blocked = true → w.notified = true) : Covered ready' tokens' ws :=
  ⟨Nat.le_trans h.due_le le, fun w mem blocked _ => due w mem blocked⟩

/-- A waiter registers while its condition is false. -/
lemma Covered.join {key} (waits : ¬ ready key) : Covered ready tokens (ws ++ [.new key]) := by
  refine ⟨?_, fun w mem blocked goes => ?_⟩
  · rw [countP_append]
    exact h.due_le
  · obtain mem | mem := mem_append.1 mem
    · exact h.aware w mem blocked goes
    · obtain rfl := mem_singleton.1 mem
      exact absurd goes waits

lemma Covered.leave (i : Nat) : Covered ready tokens (ws.eraseIdx i) :=
  ⟨Nat.le_trans (eraseIdx_sublist ws i).countP_le h.due_le,
    fun w mem => h.aware w ((eraseIdx_sublist ws i).subset mem)⟩

end

variable {i : Nat}

lemma countP_due_wakeAt (found : ws[i]? = some w) (due : w.due = true) :
    (wakeAt i ws).countP Waiter.due + 1 = ws.countP Waiter.due := by
  induction ws generalizing i with
  | nil => cases found
  | cons v ws ih =>
    cases i with
    | zero =>
      cases found
      rw [wakeAt, modify_zero_cons, countP_cons_of_neg (by simp [Waiter.due]),
        countP_cons_of_pos due]
    | succ i =>
      have rest := ih found
      rw [wakeAt, modify_succ_cons, countP_cons, countP_cons, ← rest]
      exact Nat.add_right_comm ..

lemma mem_wakeAt (mem : w ∈ wakeAt i ws) (blocked : w.blocked = true) : w ∈ ws := by
  induction ws generalizing i with
  | nil => cases i <;> exact mem
  | cons v ws ih =>
    cases i with
    | zero =>
      rw [wakeAt, modify_zero_cons] at mem
      rcases mem_cons.1 mem with rfl | mem
      · cases blocked
      · exact mem_cons_of_mem _ mem
    | succ i =>
      rw [wakeAt, modify_succ_cons] at mem
      rcases mem_cons.1 mem with rfl | mem
      · exact mem_cons_self
      · exact mem_cons_of_mem _ (ih mem)

lemma key_wakeAt (mem : w ∈ wakeAt i ws) : ∃ v ∈ ws, v.key = w.key := by
  obtain ⟨j, found⟩ := mem_iff_getElem?.1 mem
  rw [wakeAt, getElem?_modify] at found
  obtain ⟨v, before, rfl⟩ := Option.map_eq_some_iff.1 found
  refine ⟨v, mem_of_getElem? before, ?_⟩
  split
  all_goals rfl

lemma key_notifyIf {c} (mem : w ∈ notifyIf c ws) : ∃ v ∈ ws, v.key = w.key := by
  cases c with
  | true =>
    obtain ⟨v, found, rfl⟩ := mem_map.1 mem
    exact ⟨v, found, rfl⟩
  | false => exact ⟨w, mem, rfl⟩

lemma Covered.take (h : Covered ready (tokens + 1) ws) (found : ws[i]? = some w)
    (blocked : w.blocked = true) (fair : Entitled ws i) : Covered ready tokens (wakeAt i ws) := by
  refine ⟨?_, fun v mem blocked goes => h.aware v (mem_wakeAt mem blocked) blocked goes⟩
  rcases fair with ⟨v, same, notified⟩ | none
  · obtain rfl := Option.some.inj (found.symm.trans same)
    have due : w.due = true := by rw [Waiter.due, blocked, notified]; rfl
    have count := countP_due_wakeAt found due
    have le := h.due_le
    omega
  · have none : (wakeAt i ws).countP Waiter.due = 0 := by
      rw [countP_eq_zero]
      intro v mem due
      have before := mem_wakeAt mem (Bool.and_eq_true_iff.1 due).1
      rw [none v before] at due
      cases due
    rw [none]
    exact Nat.zero_le _

end Wake
