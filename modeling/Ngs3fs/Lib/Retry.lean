import Mathlib.Algebra.Ring.Nat

/-!
# Requests that are sent again

A request goes over a link that may lose it or its answer, and the state of the other side may
change before an attempt arrives. `retry` sends it until an attempt settles it or none is left, and
says whether an earlier attempt may have been processed. -/

namespace Retry
open Nat List

variable {σ ρ : Type}

/-- Its answer comes back, the link fails, an answer comes that asks to try again, or it is turned
down for good. A failed attempt may have been processed. -/
inductive Fate where
  | answered
  | lost (processed : Bool)
  | busy (processed : Bool)
  | refused
  deriving DecidableEq

/-- The attempt does not settle the request. -/
def Fate.ambiguous : Fate → Bool
  | .lost _ | .busy _ => true
  | .answered | .refused => false

/-- The other side has carried out the request. -/
def Fate.processed : Fate → Bool
  | .answered => true
  | .lost processed | .busy processed => processed
  | .refused => false

inductive Reply (ρ : Type) where
  | answer (response : ρ)
  | lost
  | busy
  | refused
  deriving DecidableEq

def Fate.reply (response : ρ) : Fate → Reply ρ
  | .answered => .answer response
  | .lost _ => .lost
  | .busy _ => .busy
  | .refused => .refused

structure Outcome (σ ρ : Type) where
  reply : Reply ρ
  ambiguous : Bool
  state : σ

variable (serve : σ → ρ × σ) (before : Nat → σ → σ) (fate : Nat → Fate)

def attempt (i : Nat) (s : σ) : Reply ρ × σ :=
  let s := before i s
  ((fate i).reply (serve s).1, if (fate i).processed then (serve s).2 else s)

/-- The attempts from number `i` on, of which `left` may follow the first. -/
def retry : (left i : Nat) → (ambiguous : Bool) → σ → Outcome σ ρ
  | 0, i, ambiguous, s =>
    let (reply, s) := attempt serve before fate i s
    -- a last answer that asks to try again is returned as it is
    ⟨reply, ambiguous || (fate i matches .lost _), s⟩
  | left + 1, i, ambiguous, s =>
    let (reply, s) := attempt serve before fate i s
    if (fate i).ambiguous then retry left (i + 1) true s else ⟨reply, ambiguous, s⟩

/-- Whether the answers arrive or not. -/
def responses : (left i : Nat) → σ → List ρ
  | 0, i, s => if (fate i).processed then [(serve (before i s)).1] else []
  | left + 1, i, s =>
    (if (fate i).processed then [(serve (before i s)).1] else []) ++
      if (fate i).ambiguous then responses left (i + 1) (attempt serve before fate i s).2 else []

def count : (left i : Nat) → Nat
  | 0, _ => 1
  | left + 1, i => if (fate i).ambiguous then count left (i + 1) + 1 else 1

/-- None of the attempts has settled the request. -/
def partway : Nat → σ → σ
  | 0, s => s
  | n + 1, s => (retry serve before fate n 0 false s).state

/-- Attempt `k` from `i` on is made: none before it settles the request. -/
def Made (i k : Nat) : Prop := ∀ j < k, (fate (i + j)).ambiguous = true

def Answered (left i : Nat) : Prop := ∃ k ≤ left, Made fate i k ∧ fate (i + k) = .answered

/-- An attempt is carried out whose answer does not arrive. -/
def Unacknowledged (left i : Nat) : Prop :=
  ∃ k ≤ left, Made fate i k ∧ (fate (i + k)).processed = true ∧ fate (i + k) ≠ .answered

variable {serve before fate} {left i : Nat} {ambiguous : Bool} {s : σ}

lemma retry_inv {I : σ → Prop} (others : ∀ i s, I s → I (before i s))
    (served : ∀ s, I s → I (serve s).2) (h : I s) :
    I (retry serve before fate left i ambiguous s).state := by
  have step (i : Nat) (s : σ) (h : I s) : I (attempt serve before fate i s).2 := by
    rw [attempt]
    split
    · exact served _ (others i s h)
    · exact others i s h
  induction left generalizing i ambiguous s with
  | zero => exact step i s h
  | succ left ih =>
    rw [retry]
    dsimp only
    split
    · exact ih (step i s h)
    · exact step i s h

/-- An answer that arrives is an answer to a state of the other side, in an attempt it has carried
out. -/
lemma reply_served {I : σ → Prop} (others : ∀ i s, I s → I (before i s))
    (served : ∀ s, I s → I (serve s).2) (h : I s) {response}
    (reply : (retry serve before fate left i ambiguous s).reply = .answer response) :
    response ∈ responses serve before fate left i s ∧ ∃ t, I t ∧ response = (serve t).1 ∧
      (retry serve before fate left i ambiguous s).state = (serve t).2 := by
  have seen (i : Nat) (s : σ) (h : I s) (reply : (attempt serve before fate i s).1 =
    .answer response) :
      (fate i).processed = true ∧ response = (serve (before i s)).1 ∧ I (before i s) ∧
        (attempt serve before fate i s).2 = (serve (before i s)).2 := by
    rw [attempt] at reply ⊢
    cases eq : fate i with
    | answered =>
      rw [eq] at reply
      exact ⟨rfl, (Reply.answer.inj reply).symm, others i s h, rfl⟩
    | _ =>
      rw [eq] at reply
      cases reply
  induction left generalizing i ambiguous s with
  | zero =>
    obtain ⟨processed, same, kept, ended⟩ := seen i s h reply
    rw [responses, if_pos processed, mem_singleton]
    exact ⟨same, _, kept, same, ended⟩
  | succ left ih =>
    rw [retry] at reply ⊢
    rw [responses]
    dsimp only at reply ⊢
    by_cases more : (fate i).ambiguous = true
    · rw [if_pos more] at reply
      rw [if_pos more, if_pos more]
      have kept : I (attempt serve before fate i s).2 := by
        rw [attempt]
        split
        · exact served _ (others i s h)
        · exact others i s h
      obtain ⟨mem, shown⟩ := ih kept reply
      exact ⟨mem_append_right _ mem, shown⟩
    · rw [if_neg more] at reply
      obtain ⟨processed, same, kept, ended⟩ := seen i s h reply
      rw [if_pos processed, if_neg more, if_neg more]
      exact ⟨mem_append_left _ (mem_singleton.2 same), _, kept, same, ended⟩

lemma retry_ambiguous_true : (retry serve before fate left i true s).ambiguous = true := by
  induction left generalizing i s with
  | zero => rfl
  | succ left ih =>
    rw [retry]
    dsimp only
    split
    · exact ih
    · rfl

/-- A request with an attempt to spare is ambiguous if its first attempt is. -/
lemma retry_ambiguous :
    (retry serve before fate (left + 1) i false s).ambiguous = (fate i).ambiguous := by
  rw [retry]
  dsimp only
  split
  · rename_i h
    rw [retry_ambiguous_true, h]
  · rename_i h
    exact (Bool.eq_false_iff.2 h).symm

/-- The first attempt is made, and the others if it does not settle the request. -/
lemma made_succ {k} : Made fate i (k + 1) ↔ (fate i).ambiguous = true ∧ Made fate (i + 1) k := by
  constructor
  · intro h
    refine ⟨h 0 k.succ_pos, ?_⟩
    intro j lt
    rw [Nat.add_assoc, Nat.add_comm 1]
    exact h (j + 1) (succ_lt_succ lt)
  · rintro ⟨first, rest⟩ j lt
    cases j with
    | zero => exact first
    | succ j =>
      rw [Nat.add_comm j, ← Nat.add_assoc]
      exact rest j (lt_of_succ_lt_succ lt)

lemma made_zero : Made fate i 0 := fun _ lt => absurd lt (not_lt_zero _)

lemma answered_succ : Answered fate (left + 1) i ↔
      fate i = .answered ∨ (fate i).ambiguous = true ∧ Answered fate left (i + 1) := by
  constructor
  · rintro ⟨_ | k, le, made, h⟩
    · exact .inl h
    · obtain ⟨first, rest⟩ := made_succ.1 made
      refine .inr ⟨first, k, le_of_succ_le_succ le, rest, ?_⟩
      rwa [Nat.add_assoc, Nat.add_comm 1]
  · rintro (h | ⟨first, k, le, made, h⟩)
    · exact ⟨0, zero_le _, made_zero, h⟩
    · refine ⟨k + 1, succ_le_succ le, made_succ.2 ⟨first, made⟩, ?_⟩
      rwa [Nat.add_comm k, ← Nat.add_assoc]

lemma answered_zero : Answered fate 0 i ↔ fate i = .answered := by
  constructor
  · rintro ⟨k, le, -, h⟩
    obtain rfl := le_zero.1 le
    exact h
  · intro h
    exact ⟨0, Nat.le_refl _, made_zero, h⟩

lemma answered_of_reply {response}
    (h : (retry serve before fate left i ambiguous s).reply = .answer response) :
    Answered fate left i := by
  have seen (i : Nat) (s : σ) (h : (attempt serve before fate i s).1 = .answer response) :
      fate i = .answered := by
    rw [attempt] at h
    cases eq : fate i with
    | answered => rfl
    | _ =>
      rw [eq] at h
      cases h
  induction left generalizing i ambiguous s with
  | zero => exact answered_zero.2 (seen i s h)
  | succ left ih =>
    rw [retry] at h
    dsimp only at h
    apply answered_succ.2
    split at h
    · rename_i first
      exact .inr ⟨first, ih h⟩
    · exact .inl (seen i s h)

lemma retry_answered (h : fate i = .answered) : retry serve before fate left i ambiguous s =
      ⟨.answer (serve (before i s)).1, ambiguous, (serve (before i s)).2⟩ := by
  have first : attempt serve before fate i s =
      (.answer (serve (before i s)).1, (serve (before i s)).2) := by
    rw [attempt, h]
    rfl
  cases left with
  | zero =>
    rw [retry, first, h]
    simp only [Bool.or_false]
  | succ left =>
    rw [retry, first, h]
    rfl

section
variable (still : ∀ i, before i s = s)
include still

/-- The state when no attempt that is made changes it. -/
lemma retry_still
    (idle : ∀ k ≤ left, Made fate i k → (fate (i + k)).processed = true → (serve s).2 = s) :
    (retry serve before fate left i ambiguous s).state = s := by
  have first : (attempt serve before fate i s).2 = s := by
    rw [attempt, still]
    split
    · rename_i processed
      exact idle 0 (zero_le _) made_zero processed
    · rfl
  induction left generalizing i ambiguous with
  | zero => exact first
  | succ left ih =>
    rw [retry]
    dsimp only
    split
    · rename_i more
      have rest : ∀ k ≤ left, Made fate (i + 1) k → (fate (i + 1 + k)).processed = true →
          (serve s).2 = s := by
        intro k le made processed
        refine idle (k + 1) (succ_le_succ le) (made_succ.2 ⟨more, made⟩) ?_
        rwa [Nat.add_comm k, ← Nat.add_assoc]
      rw [first]
      apply ih rest
      rw [attempt, still]
      split
      · rename_i processed
        exact rest 0 (zero_le _) made_zero processed
      · rfl
    · exact first

lemma reply_of_answered (idle : (serve s).2 = s) (h : Answered fate left i) :
    (retry serve before fate left i ambiguous s).reply = .answer (serve s).1 := by
  have first (i : Nat) (eq : fate i = .answered) :
      (attempt serve before fate i s).1 = .answer (serve s).1 := by
    rw [attempt, still, eq]
    rfl
  induction left generalizing i ambiguous with
  | zero => exact first i (answered_zero.1 h)
  | succ left ih =>
    rw [retry]
    dsimp only
    obtain eq | ⟨more, rest⟩ := answered_succ.1 h
    · rw [if_neg (by rw [eq]; exact Bool.false_ne_true)]
      exact first i eq
    · have same : (attempt serve before fate i s).2 = s := by
        rw [attempt, still]
        rw [idle, ite_self]
      rw [if_pos more, same]
      exact ih rest

/-- What processing the request brings about and nothing takes back holds when an attempt that is
made has been processed. -/
lemma retry_processed {P : σ → Prop} (served : P (serve s).2) (others : ∀ i s, P s → P (before i s))
    (keep : ∀ s, P s → P (serve s).2) {k} (le : k ≤ left) (made : Made fate i k)
    (processed : (fate (i + k)).processed = true) :
    P (retry serve before fate left i ambiguous s).state := by
  have first {i : Nat} (processed : (fate i).processed = true) :
      P (attempt serve before fate i s).2 := by
    rw [attempt, still]
    rw [if_pos processed]
    exact served
  induction left generalizing i ambiguous k with
  | zero =>
    obtain rfl := le_zero.1 le
    exact first processed
  | succ left ih =>
    rw [retry]
    dsimp only
    by_cases now : (fate i).processed = true
    · split
      · exact retry_inv others keep (first now)
      · exact first now
    · cases k with
      | zero => exact absurd processed now
      | succ k =>
        obtain ⟨more, rest⟩ := made_succ.1 made
        have same : (attempt serve before fate i s).2 = s := by
          rw [attempt, still]
          exact if_neg now
        rw [if_pos more, same]
        apply ih (le_of_succ_le_succ le) rest
        rwa [Nat.add_assoc, Nat.add_comm 1]

end

section
variable {r1 r2 : ρ} {t : σ} (still : ∀ i s, before i s = s) (first : serve s = (r1, t))
  (again : serve t = (r2, t))

lemma unacknowledged_succ : Unacknowledged fate (left + 1) i ↔
    (fate i).ambiguous = true ∧ ((fate i).processed = true ∨ Unacknowledged fate left (i + 1)) := by
  constructor
  · rintro ⟨k, le, made, processed, unanswered⟩
    cases k with
    | zero =>
      rw [Nat.add_zero] at processed unanswered
      refine ⟨?_, .inl processed⟩
      cases eq : fate i with
      | answered => exact absurd eq unanswered
      | refused =>
        rw [eq] at processed
        cases processed
      | lost _ | busy _ => rfl
    | succ k =>
      obtain ⟨more, rest⟩ := made_succ.1 made
      rw [Nat.add_comm k, ← Nat.add_assoc] at processed unanswered
      exact ⟨more, .inr ⟨k, le_of_succ_le_succ le, rest, processed, unanswered⟩⟩
  · rintro ⟨more, processed | ⟨k, le, made, processed, unanswered⟩⟩
    · refine ⟨0, zero_le _, made_zero, processed, ?_⟩
      intro eq
      rw [Nat.add_zero] at eq
      rw [eq] at more
      cases more
    · rw [Nat.add_assoc, Nat.add_comm 1] at processed unanswered
      exact ⟨k + 1, succ_le_succ le, made_succ.2 ⟨more, made⟩, processed, unanswered⟩

lemma unacknowledged_zero :
    Unacknowledged fate 0 i ↔ (fate i).processed = true ∧ fate i ≠ .answered := by
  constructor
  · rintro ⟨k, le, -, h⟩
    obtain rfl := le_zero.1 le
    exact h
  · intro h
    exact ⟨0, Nat.le_refl _, made_zero, h⟩

include still first again

/-- A request that can be carried out once, and was without an answer: a later answer is that of a
repetition. -/
lemma retry_unacknowledged (ambiguous : Bool) (unacknowledged : Unacknowledged fate left i) :
    (retry serve before fate left i ambiguous s).state = t ∧ (Answered fate left i →
      (retry serve before fate left i ambiguous s).reply = .answer r2) := by
  have once {i : Nat} (processed : (fate i).processed = true) :
      (attempt serve before fate i s).2 = t := by
    rw [attempt, still]
    rw [if_pos processed, first]
  have idle : (serve t).2 = t := by rw [again]
  induction left generalizing i ambiguous with
  | zero =>
    obtain ⟨processed, unanswered⟩ := unacknowledged_zero.1 unacknowledged
    exact ⟨once processed, fun answered => absurd (answered_zero.1 answered) unanswered⟩
  | succ left ih =>
    obtain ⟨more, rest⟩ := unacknowledged_succ.1 unacknowledged
    rw [retry]
    dsimp only
    rw [if_pos more]
    have later (answered : Answered fate (left + 1) i) : Answered fate left (i + 1) := by
      obtain eq | ⟨_, rest⟩ := answered_succ.1 answered
      · rw [eq] at more
        cases more
      · exact rest
    by_cases processed : (fate i).processed = true
    · rw [once processed]
      refine ⟨retry_still (fun i => still i t) fun _ _ _ _ => idle, fun answered => ?_⟩
      rw [reply_of_answered (fun i => still i t) idle (later answered), again]
    · have same : (attempt serve before fate i s).2 = s := by
        rw [attempt, still]
        exact if_neg processed
      rw [same]
      obtain ⟨state, reply⟩ := ih true (rest.resolve_left processed)
      exact ⟨state, fun answered => reply (later answered)⟩

omit again in
/-- Every attempt that was carried out was answered. -/
lemma retry_acknowledged (ambiguous : Bool) (acknowledged : ¬ Unacknowledged fate left i) :
    (Answered fate left i → (retry serve before fate left i ambiguous s).reply = .answer r1) ∧
      (¬ Answered fate left i → (retry serve before fate left i ambiguous s).state = s) := by
  have answer {i : Nat} (eq : fate i = .answered) : (attempt serve before fate i s).1 =
    .answer r1 := by
    rw [attempt, still, eq, first]
    rfl
  have skip {i : Nat} (processed : ¬(fate i).processed = true) :
      (attempt serve before fate i s).2 = s := by
    rw [attempt, still]
    exact if_neg processed
  induction left generalizing i ambiguous with
  | zero =>
    refine ⟨fun answered => answer (answered_zero.1 answered), fun unanswered =>
      skip fun processed => ?_⟩
    exact acknowledged (unacknowledged_zero.2 ⟨processed, fun eq =>
      unanswered (answered_zero.2 eq)⟩)
  | succ left ih =>
    rw [retry]
    dsimp only
    by_cases more : (fate i).ambiguous = true
    · rw [if_pos more]
      have processed : ¬(fate i).processed = true := fun processed =>
        acknowledged (unacknowledged_succ.2 ⟨more, .inl processed⟩)
      rw [skip processed]
      obtain ⟨answered, unanswered⟩ := ih true fun rest =>
        acknowledged (unacknowledged_succ.2 ⟨more, .inr rest⟩)
      refine ⟨fun h => ?_, fun h => unanswered fun rest => h (answered_succ.2 (.inr ⟨more, rest⟩))⟩
      obtain eq | ⟨_, rest⟩ := answered_succ.1 h
      · rw [eq] at more
        cases more
      · exact answered rest
    · rw [if_neg more]
      refine ⟨fun h => ?_, fun h => skip fun processed => ?_⟩
      · obtain eq | ⟨more', _⟩ := answered_succ.1 h
        · exact answer eq
        · exact absurd more' more
      · cases eq : fate i with
        | answered => exact h (answered_succ.2 (.inl eq))
        | refused =>
          rw [eq] at processed
          cases processed
        | lost _ | busy _ =>
          rw [eq] at more
          exact more rfl

end

end Retry
