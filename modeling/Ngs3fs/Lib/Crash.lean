import Mathlib.Data.List.Basic

/-!
# Crashes between effects

A call changes persistent state by a list of effects in program order. A crash after `n` of them
leaves what the first `n` have made. -/

namespace Crash
open List

variable {σ : Type*}

def complete (effects : List (σ → σ)) (s : σ) : σ := effects.foldl (fun s effect => effect s) s

def after (effects : List (σ → σ)) (n : Nat) (s : σ) : σ := complete (effects.take n) s

variable {effects first second : List (σ → σ)} {n : Nat} {s : σ}

@[simp]
lemma after_zero : after effects 0 s = s := rfl

@[simp]
lemma after_nil : after [] n s = s := by
  rw [after, take_nil]
  rfl

lemma complete_append : complete (first ++ second) s = complete second (complete first s) :=
  foldl_append

/-- A crash that comes after the last effect. -/
lemma after_of_length_le (h : effects.length ≤ n) : after effects n s = complete effects s := by
  rw [after, take_of_length_le h]

lemma after_append_left (h : n ≤ first.length) : after (first ++ second) n s = after first n s := by
  rw [after, take_append_of_le_length h, after]

lemma after_append_right (h : first.length ≤ n) :
    after (first ++ second) n s = after second (n - first.length) (complete first s) := by
  rw [after, take_append, take_of_length_le h, complete_append, after]

/-- What every effect keeps, a crash at any point keeps. -/
lemma after_inv {I : σ → Prop} (keep : ∀ effect ∈ effects, ∀ s, I s → I (effect s)) (h : I s) :
    I (after effects n s) := by
  induction effects generalizing n s with
  | nil =>
    rw [after_nil]
    exact h
  | cons effect effects ih =>
    cases n with
    | zero => exact h
    | succ n =>
      apply ih
      · intro other mem
        exact keep other (mem_cons_of_mem _ mem)
      · exact keep effect mem_cons_self s h

/-- A property at every point of a call, from its first effect on. -/
lemma after_cons {I : σ → Prop} {effect} (h : I s) (rest : ∀ n, I (after effects n (effect s)))
    (n : Nat) : I (after (effect :: effects) n s) := by
  cases n with
  | zero => exact h
  | succ n => exact rest n

lemma after_append {I : σ → Prop} (head : ∀ n, I (after first n s))
    (tail : ∀ n, I (after second n (complete first s))) (n : Nat) :
    I (after (first ++ second) n s) := by
  cases Nat.le_total n first.length with
  | inl le =>
    rw [after_append_left le]
    exact head n
  | inr le =>
    rw [after_append_right le]
    exact tail _

end Crash
