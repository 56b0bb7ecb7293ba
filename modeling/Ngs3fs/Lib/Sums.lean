import Mathlib.Algebra.Ring.Nat
import Mathlib.Algebra.BigOperators.Group.List.Basic

/-!
# Sums over a table

A table is a list whose places keep their numbers: what a change of one place does to a sum, and to
a property of all members. -/

namespace Sums
open List

variable {α M : Type}
variable {l : List α} {i : Nat} {a : α}

lemma sum_map_set [AddCommMonoid M] (f : α → M) (b : α) (found : l[i]? = some a) :
    ((l.set i b).map f).sum + f a = (l.map f).sum + f b := by
  induction l generalizing i with
  | nil => cases found
  | cons c l ih =>
    cases i with
    | zero =>
      cases found
      simp only [set_cons_zero, map_cons, sum_cons]
      rw [add_comm, ← add_assoc, add_right_comm, add_comm (f a)]
    | succ i =>
      simp only [set_cons_succ, map_cons, sum_cons]
      rw [add_assoc, ih found, add_assoc]

lemma sum_map_eraseIdx [AddCommMonoid M] (f : α → M) (found : l[i]? = some a) :
    f a + ((l.eraseIdx i).map f).sum = (l.map f).sum := by
  induction l generalizing i with
  | nil => cases found
  | cons c l ih =>
    cases i with
    | zero =>
      cases found
      rfl
    | succ i =>
      rw [eraseIdx_cons_succ, map_cons, sum_cons, map_cons, sum_cons, add_left_comm, ih found]

lemma set_of_getElem? (found : l[i]? = some a) : l.set i a = l := by
  obtain ⟨lt, rfl⟩ := List.getElem?_eq_some_iff.1 found
  exact set_getElem_self lt

lemma sum_map_concat [AddCommMonoid M] (f : α → M) (l : List α) (b : α) :
    ((l ++ [b]).map f).sum = (l.map f).sum + f b := by
  rw [map_append, sum_append, map_singleton, sum_singleton]

lemma forall_mem_set {P : α → Prop} {b} (h : ∀ a ∈ l, P a) (hb : P b) : ∀ a ∈ l.set i b, P a := by
  intro a mem
  obtain mem | rfl := mem_or_eq_of_mem_set mem
  · exact h a mem
  · exact hb

lemma forall_mem_concat {P : α → Prop} {b} (h : ∀ a ∈ l, P a) (hb : P b) : ∀ a ∈ l ++ [b], P a := by
  intro a mem
  obtain mem | mem := mem_append.1 mem
  · exact h a mem
  · obtain rfl := mem_singleton.1 mem
    exact hb

end Sums
