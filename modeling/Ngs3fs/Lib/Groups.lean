import Mathlib.Data.List.Induction
import Mathlib.Data.List.Sort

/-!
# Values grouped by key, in the order of the keys

`add` puts a value at the end of the group of its key, made at its place among the sorted keys if
there is none. `Grouped` says what a list of groups is for the pairs it was made of;
`Grouped.unique` that it is the only one. -/

namespace Groups
open List

variable {κ ν : Type*} [LinearOrder κ]

def add (k : κ) (v : ν) : List (κ × List ν) → List (κ × List ν)
  | [] => [(k, [v])]
  | (n, vs) :: groups =>
    if n < k then (n, vs) :: add k v groups
    else if n = k then (n, vs ++ [v]) :: groups
    else (k, [v]) :: (n, vs) :: groups

def group (given : List (κ × ν)) : List (κ × List ν) :=
  given.foldl (fun groups pair => add pair.1 pair.2 groups) []

def valuesFor (n : κ) (given : List (κ × ν)) : List ν :=
  (given.filter fun pair => pair.1 = n).map Prod.snd

/-- The keys increase, and a group is the values given for its key, of which there are some. -/
structure Grouped (given : List (κ × ν)) (groups : List (κ × List ν)) : Prop where
  sorted : groups.Pairwise fun a b => a.1 < b.1
  mem : ∀ n vs, (n, vs) ∈ groups ↔ vs = valuesFor n given ∧ vs ≠ []

lemma valuesFor_concat (n k : κ) (v : ν) (given : List (κ × ν)) :
    valuesFor n (given ++ [(k, v)]) = valuesFor n given ++ if k = n then [v] else [] := by
  rw [valuesFor, filter_append, map_append]
  by_cases same : k = n
  all_goals simp [valuesFor, same]

section
variable {k n : κ} {v : ν} {vs : List ν} {groups : List (κ × List ν)}

lemma key_of_mem_add (mem : (n, vs) ∈ add k v groups) : n = k ∨ ∃ ws, (n, ws) ∈ groups := by
  induction groups with
  | nil =>
    cases mem_singleton.1 mem
    exact .inl rfl
  | cons head groups ih =>
    rw [add] at mem
    split at mem
    · rcases mem_cons.1 mem with here | there
      · cases here
        exact .inr ⟨_, mem_cons_self⟩
      · rcases ih there with same | ⟨us, found⟩
        · exact .inl same
        · exact .inr ⟨us, mem_cons_of_mem _ found⟩
    split at mem
    · rcases mem_cons.1 mem with here | there
      · cases here
        exact .inr ⟨_, mem_cons_self⟩
      · exact .inr ⟨_, mem_cons_of_mem _ there⟩
    · rcases mem_cons.1 mem with here | there
      · cases here
        exact .inl rfl
      · exact .inr ⟨_, there⟩

lemma sorted_add (sorted : groups.Pairwise fun a b => a.1 < b.1) :
    (add k v groups).Pairwise fun a b => a.1 < b.1 := by
  induction groups with
  | nil => exact pairwise_singleton _ _
  | cons head groups ih =>
    obtain ⟨m, ws⟩ := head
    obtain ⟨first, rest⟩ := pairwise_cons.1 sorted
    rw [add]
    split
    · rename_i before
      refine pairwise_cons.2 ⟨fun b mem => ?_, ih rest⟩
      rcases key_of_mem_add mem with same | ⟨us, found⟩
      · exact same ▸ before
      · exact first (b.1, us) found
    split
    · exact pairwise_cons.2 ⟨first, rest⟩
    · rename_i notBefore other
      have after : k < m := lt_of_le_of_ne (not_lt.1 notBefore) (Ne.symm other)
      refine pairwise_cons.2 ⟨fun b mem => ?_, sorted⟩
      rcases mem_cons.1 mem with here | there
      · exact here ▸ after
      · exact after.trans (first b there)

/-- Groups of other keys stay as they are. -/
lemma mem_add_of_ne (other : n ≠ k) : (n, vs) ∈ add k v groups ↔ (n, vs) ∈ groups := by
  induction groups with
  | nil => simp [add, other]
  | cons head groups ih =>
    obtain ⟨m, ws⟩ := head
    rw [add]
    split
    · rw [mem_cons, mem_cons, ih]
    split
    · rename_i same
      simp [same, other]
    · simp [other]

lemma mem_add_self (sorted : groups.Pairwise fun a b => a.1 < b.1) : (k, vs) ∈ add k v groups ↔
      (∃ ws, (k, ws) ∈ groups ∧ vs = ws ++ [v]) ∨ (∀ ws, (k, ws) ∉ groups) ∧ vs = [v] := by
  induction groups with
  | nil => simp [add]
  | cons head groups ih =>
    obtain ⟨m, ws⟩ := head
    obtain ⟨first, rest⟩ := pairwise_cons.1 sorted
    rw [add]
    split
    · rename_i before
      simp [ih rest, before.ne']
    split
    · rename_i same
      subst same
      have absent (us : List ν) : (m, us) ∉ groups := fun mem => lt_irrefl m (first _ mem)
      constructor
      · intro mem
        rcases mem_cons.1 mem with here | there
        · cases here
          exact .inl ⟨ws, mem_cons_self, rfl⟩
        · exact absurd there (absent _)
      · rintro (⟨us, mem, rfl⟩ | ⟨none, -⟩)
        · rcases mem_cons.1 mem with here | there
          · cases here
            exact mem_cons_self
          · exact absurd there (absent _)
        · exact absurd mem_cons_self (none ws)
    · rename_i notBefore other
      have after : k < m := lt_of_le_of_ne (not_lt.1 notBefore) (Ne.symm other)
      have absent (us : List ν) : (k, us) ∉ (m, ws) :: groups := by
        intro mem
        rcases mem_cons.1 mem with here | there
        · cases here
          exact other rfl
        · exact lt_asymm after (first _ there)
      constructor
      · intro mem
        rcases mem_cons.1 mem with here | there
        · cases here
          exact .inr ⟨absent, rfl⟩
        · exact absurd there (absent _)
      · rintro (⟨us, mem, rfl⟩ | ⟨-, rfl⟩)
        · exact absurd mem (absent us)
        · exact mem_cons_self

end

section
variable {given given' : List (κ × ν)} {groups groups' : List (κ × List ν)}

lemma Grouped.add (grouped : Grouped given groups) (k : κ) (v : ν) :
    Grouped (given ++ [(k, v)]) (Groups.add k v groups) := by
  refine ⟨sorted_add grouped.sorted, fun n vs => ?_⟩
  rw [valuesFor_concat]
  by_cases same : k = n
  · subst same
    rw [mem_add_self grouped.sorted, if_pos rfl]
    constructor
    · rintro (⟨ws, mem, rfl⟩ | ⟨none, rfl⟩)
      · rw [((grouped.mem k ws).1 mem).1]
        simp
      · have empty : valuesFor k given = [] := by
          by_contra some
          exact none _ ((grouped.mem k _).2 ⟨rfl, some⟩)
        simp [empty]
    · rintro ⟨rfl, -⟩
      by_cases empty : valuesFor k given = []
      · refine .inr ⟨fun ws mem => ?_, by rw [empty, nil_append]⟩
        obtain ⟨rfl, some⟩ := (grouped.mem k ws).1 mem
        exact some empty
      · exact .inl ⟨_, (grouped.mem k _).2 ⟨rfl, empty⟩, rfl⟩
  · rw [mem_add_of_ne (Ne.symm same), if_neg same, append_nil, grouped.mem]

theorem grouped_group (given : List (κ × ν)) : Grouped given (group given) := by
  induction given using reverseRecOn with
  | nil => exact ⟨.nil, by simp [group, valuesFor]⟩
  | append_singleton given pair ih =>
    have last : group (given ++ [pair]) = Groups.add pair.1 pair.2 (group given) := by
      rw [group, foldl_append]
      rfl
    rw [last]
    exact ih.add pair.1 pair.2

theorem Grouped.unique (grouped : Grouped given groups) (grouped' : Grouped given' groups')
    (same : ∀ n, valuesFor n given = valuesFor n given') : groups = groups' := by
  have : Std.Antisymm fun a b : κ × List ν => a.1 < b.1 :=
    ⟨fun _ _ less more => absurd more (lt_asymm less)⟩
  have : Std.Irrefl fun a b : κ × List ν => a.1 < b.1 := ⟨fun _ => lt_irrefl _⟩
  refine grouped.sorted.eq_of_mem_iff grouped'.sorted fun (n, vs) => ?_
  rw [grouped.mem, grouped'.mem, same]

end

end Groups
