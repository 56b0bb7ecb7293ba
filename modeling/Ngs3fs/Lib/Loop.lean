import Mathlib.Tactic
import Mathlib.Data.List.Sigma

/-!
# Counting loops

The loop forms of imperative code over numbered cells, as folds over lists of indices. `forRange`
is `for (i = first; i < last; ++i)`; `stepped` lists the values of `for (b = start; b < stop; b +=
step)`, so that a loop with early exits is a recursion over that list. `modifyFirst` is the update
of the first match a linear search finds. -/

namespace Loop
open List Prod

def forRange {σ : Type*} (first last : Nat) (s : σ) (f : σ → Nat → σ) : σ :=
  (range' first (last - first)).foldl f s

def stepped (start stop step : Nat) : List Nat :=
  range' start ((stop - start + step - 1) / step) step

variable {σ : Type*} {first last : Nat}

@[simp] lemma forRange_of_le (h : last ≤ first) (s : σ) (f : σ → Nat → σ) :
    forRange first last s f = s := by
  simp [forRange, Nat.sub_eq_zero_of_le h]

lemma forRange_of_lt (h : first < last) (s : σ) (f : σ → Nat → σ) :
    forRange first last s f = forRange (first + 1) last (f s first) f := by
  obtain ⟨n, rfl⟩ := Nat.exists_eq_add_of_lt h
  rw [forRange, forRange, show first + n + 1 - first = n + 1 by omega,
    show first + n + 1 - (first + 1) = n by omega, range'_succ]
  rfl

variable {α : Type*}

lemma forRange_update (first last : Nat) (g : Nat → α) (f : Nat → α → α) (j : Nat) :
    forRange first last g (fun g i => Function.update g i (f i (g i))) j =
      if first ≤ j ∧ j < last then f j (g j) else g j := by
  induction n : last - first generalizing first g with
  | zero =>
    rw [forRange_of_le (by omega), if_neg (by omega)]
  | succ n ih =>
    rw [forRange_of_lt (by omega), ih _ _ (by omega)]
    by_cases hj : j = first
    · subst hj
      rw [if_neg (by omega), if_pos (by omega), Function.update_self]
    · rw [Function.update_of_ne hj]
      by_cases h : first ≤ j ∧ j < last
      · rw [if_pos (by omega), if_pos h]
      · rw [if_neg (by omega), if_neg h]

lemma mem_range'_iff {i} : i ∈ range' first (last - first) ↔ first ≤ i ∧ i < last := by
  rw [mem_range'_1]
  omega

variable {start stop step : Nat}

lemma stepped_of_le (h : stop ≤ start) : stepped start stop step = [] := by
  rcases Nat.eq_zero_or_pos step with rfl | hs
  · simp [stepped]
  · rw [stepped, Nat.sub_eq_zero_of_le h, Nat.div_eq_of_lt (by omega), range'_zero]

lemma stepped_of_lt (hs : 0 < step) (h : start < stop) :
    stepped start stop step = start :: stepped (start + step) stop step := by
  have count : (stop - start + step - 1) / step = (stop - (start + step) + step - 1) /
      step + 1 := by
    by_cases hle : start + step ≤ stop
    · rw [show stop - start + step - 1 = stop - (start + step) + step - 1 + step by omega,
        Nat.add_div_right _ hs]
    · rw [show stop - (start + step) = 0 by omega, Nat.zero_add,
        Nat.div_eq_of_lt (show step - 1 < step by omega)]
      exact Nat.div_eq_of_lt_le (by omega) (by omega)
  rw [stepped, count, range'_succ]
  rfl

lemma mem_stepped {b} (hs : 0 < step) :
    b ∈ stepped start stop step ↔ start ≤ b ∧ b < stop ∧ step ∣ b - start := by
  induction n : stop - start using Nat.strong_induction_on generalizing start with
  | _ n ih =>
    by_cases h : start < stop
    · rw [stepped_of_lt hs h, mem_cons, ih _ (by omega) rfl]
      constructor
      · rintro (rfl | ⟨h1, h2, k, hk⟩)
        · exact ⟨le_refl _, h, by simp⟩
        · exact ⟨by omega, h2, k + 1, by rw [Nat.mul_succ]; omega⟩
      · rintro ⟨h1, h2, k, hk⟩
        cases k with
        | zero => exact .inl (by omega)
        | succ k =>
          rw [Nat.mul_succ] at hk
          exact .inr ⟨by omega, h2, k, by omega⟩
    · rw [stepped_of_le (by omega)]
      simp only [not_mem_nil, false_iff]
      omega

lemma forRange_shift (k first last : Nat) (s : σ) (f : σ → Nat → σ) :
    forRange first last s (fun s i => f s (k + i)) = forRange (k + first) (k + last) s f := by
  rw [forRange, forRange, show k + last - (k + first) = last - first by omega,
    ← map_add_range', foldl_map]

def modifyFirst {α : Type*} (p : α → Bool) (f : α → α) : List α → List α
  | [] => []
  | a :: l => if p a then f a :: l else a :: modifyFirst p f l

variable {p : α → Bool} {l : List α} {a : α}

lemma perm_of_find? (h : l.find? p = some a) : l.Perm (a :: l.eraseP p) := by
  induction l with
  | nil => cases h
  | cons b l ih =>
    by_cases hb : p b
    · rw [find?_cons_of_pos hb, Option.some.injEq] at h
      rw [h, eraseP_cons_of_pos (h ▸ hb)]
    · rw [find?_cons_of_neg hb] at h
      rw [eraseP_cons_of_neg hb]
      exact ((ih h).cons b).trans (.swap a b _)
variable {f : α → α}

lemma modifyFirst_perm (h : l.find? p = some a) : (modifyFirst p f l).Perm (f a :: l.eraseP p) := by
  induction l with
  | nil => cases h
  | cons b l ih =>
    by_cases hb : p b
    · rw [find?_cons_of_pos hb, Option.some.injEq] at h
      rw [modifyFirst, if_pos hb, eraseP_cons_of_pos hb, h]
    · rw [find?_cons_of_neg hb] at h
      rw [modifyFirst, if_neg hb, eraseP_cons_of_neg hb]
      exact ((ih h).cons b).trans (.swap (f a) b _)

lemma modifyFirst_eq_self (h : ∀ a, l.find? p = some a → f a = a) : modifyFirst p f l = l := by
  induction l with
  | nil => rfl
  | cons b l ih =>
    by_cases hb : p b
    · rw [modifyFirst, if_pos hb, h b (find?_cons_of_pos hb)]
    · rw [modifyFirst, if_neg hb, ih]
      intro a ha
      exact h a (by rwa [find?_cons_of_neg hb])

/-- A search that an update does not disturb finds the element as it was or as it is now. -/
lemma find?_modifyFirst_of_same {q} (same : ∀ a, q (f a) = q a) (found : l.find? q = some a) :
    ∃ b, (modifyFirst p f l).find? q = some b ∧ (b = a ∨ b = f a) := by
  induction l with
  | nil => cases found
  | cons c l ih =>
    rw [modifyFirst]
    cases here : q c with
    | true =>
      rw [find?_cons_of_pos here] at found
      obtain rfl := Option.some.inj found
      split
      · exact ⟨f c, find?_cons_of_pos ((same c).trans here), .inr rfl⟩
      · exact ⟨c, find?_cons_of_pos here, .inl rfl⟩
    | false =>
      have no : ¬ q c = true := by rw [here]; exact Bool.false_ne_true
      rw [find?_cons_of_neg no] at found
      split
      · refine ⟨a, ?_, .inl rfl⟩
        rw [find?_cons_of_neg (by rw [same]; exact no)]
        exact found
      · obtain ⟨b, eq, or⟩ := ih found
        exact ⟨b, (find?_cons_of_neg no).trans eq, or⟩

lemma find?_modifyFirst (h : ∀ a, p (f a) = p a) :
    (modifyFirst p f l).find? p = (l.find? p).map f := by
  induction l with
  | nil => rfl
  | cons b l ih =>
    by_cases hb : p b
    · rw [modifyFirst, if_pos hb, find?_cons_of_pos (by rwa [h]), find?_cons_of_pos hb]
      rfl
    · rw [modifyFirst, if_neg hb, find?_cons_of_neg hb, find?_cons_of_neg hb, ih]

lemma countP_eq_length_index : l.countP p = (((l.zipIdx).filter (p ∘ fst)).map snd).length := by
  rw [length_map, ← countP_eq_length_filter, ← countP_map, zipIdx_map_fst]

/-- The index of each match is that of a match in the other list. -/
lemma countP_le_of_index {β} {m : List β} {q} (index : β → Nat)
    (h : ∀ i a, l[i]? = some a → p a = true → ∃ b ∈ m, q b = true ∧ index b = i) :
    l.countP p ≤ m.countP q := by
  have nodup : (((l.zipIdx).filter (p ∘ fst)).map snd).Nodup :=
    (nodup_zipIdx_map_snd l).sublist (filter_sublist.map _)
  have subset : ((l.zipIdx).filter (p ∘ fst)).map snd ⊆ (m.filter q).map index := by
    intro i hi
    obtain ⟨⟨a, k⟩, mem, rfl⟩ := mem_map.1 hi
    obtain ⟨mem, hp⟩ := mem_filter.1 mem
    obtain ⟨b, hb, hq, eq⟩ := h k a (mem_zipIdx_iff_getElem?.1 mem) hp
    exact mem_map.2 ⟨b, mem_filter.2 ⟨hb, hq⟩, eq⟩
  rw [countP_eq_length_index, countP_eq_length_filter, ← length_map index]
  exact (nodup.subperm subset).length_le

lemma countP_le_of_nodup_index {β} {m : List β} {q} {index : β → Nat} (nodup : (m.map index).Nodup)
    (h : ∀ b ∈ m, q b = true → ∃ a, l[index b]? = some a ∧ p a = true) :
    m.countP q ≤ l.countP p := by
  have subset : (m.filter q).map index ⊆ ((l.zipIdx).filter (p ∘ fst)).map snd := by
    intro i hi
    obtain ⟨b, mem, rfl⟩ := mem_map.1 hi
    obtain ⟨mem, hq⟩ := mem_filter.1 mem
    obtain ⟨a, found, hp⟩ := h b mem hq
    exact mem_map.2 ⟨(a, index b), mem_filter.2 ⟨mem_zipIdx_iff_getElem?.2 found, hp⟩, rfl⟩
  rw [countP_eq_length_index (l := l), countP_eq_length_filter, ← length_map index]
  exact ((nodup.sublist (filter_sublist.map _)).subperm subset).length_le

end Loop
