import Mathlib.Algebra.Ring.Nat
import Mathlib.Data.List.Rotate
import Mathlib.Data.List.TakeWhile

/-!
# Second chance

A hand goes round `n` slots. A sweep takes the reference bit of each slot it passes, and stops at
the first candidate that had none. Seen from the candidates in the order of the hand, with their
bits (the `queue`), a sweep is a `chance` (`sweep_queue`), and two of them take `firstTwo`. -/

namespace Clock
open List Nat

structure Face where
  hand : Nat
  referenced : Nat → Bool

/-- The sweep over `k` slots of `n`. -/
def sweep (n : Nat) (candidate : Nat → Bool) : Nat → Face → Face × Option Nat
  | 0, c => (c, none)
  | k + 1, c =>
    let slot := c.hand % n
    if c.referenced slot then
      sweep n candidate k ⟨c.hand + 1, Function.update c.referenced slot false⟩
    else if candidate slot then (⟨c.hand + 1, c.referenced⟩, some slot)
    else sweep n candidate k ⟨c.hand + 1, c.referenced⟩

def slots (n hand k : Nat) : List Nat := (List.range' hand k).map (· % n)

/-- The candidates in the order of the hand, with their bits. -/
def queue (n : Nat) (candidate : Nat → Bool) (c : Face) : List (Nat × Bool) :=
  ((slots n c.hand n).filter candidate).map fun slot => (slot, c.referenced slot)

section
variable {α : Type}

def spent (q : List (α × Bool)) : List (α × Bool) := q.map fun x => (x.1, false)

/-- The first candidate without a bit is taken, the ones before it lose theirs and go behind the
others. -/
def chance (q : List (α × Bool)) : Option α × List (α × Bool) :=
  match q.dropWhile (·.2) with
  | [] => (none, spent q)
  | x :: later => (some x.1, later ++ spent (q.takeWhile (·.2)))

def firstTwo (q : List (α × Bool)) : List α :=
  match q.filter (!·.2) with
  | [] => (q.take 1).map Prod.fst
  | [x] => x.1 :: ((q.takeWhile (·.2)).take 1).map Prod.fst
  | x :: y :: _ => [x.1, y.1]

def takes : Nat → List (α × Bool) → List α
  | 0, _ => []
  | k + 1, q => (chance q).1.toList ++ takes k (chance q).2

def leaves : Nat → List (α × Bool) → List (α × Bool)
  | 0, q => q
  | k + 1, q => leaves k (chance q).2

/-- Two sweeps leave nothing. -/
def Brief : List (α × Bool) → Prop
  | [] => True
  | [_] => True
  | [_, y] => y.2 = false
  | _ => False

instance (q : List (α × Bool)) : Decidable (Brief q) :=
  match q with
  | [] => .isTrue trivial
  | [_] => .isTrue trivial
  | [_, y] => inferInstanceAs (Decidable (y.2 = false))
  | _ :: _ :: _ :: _ => .isFalse id

variable {q before later : List (α × Bool)} {x : α}

lemma chance_none (all : ∀ y ∈ q, y.2 = true) : chance q = (none, spent q) := by
  rw [chance, dropWhile_eq_nil_iff.2 all]

lemma chance_some (all : ∀ y ∈ before, y.2 = true) :
    chance (before ++ (x, false) :: later) = (some x, later ++ spent before) := by
  have drop : (before ++ (x, false) :: later).dropWhile (·.2) = (x, false) :: later := by
    rw [dropWhile_append, dropWhile_eq_nil_iff.2 all, isEmpty_nil, if_pos rfl]
    rfl
  have take : (before ++ (x, false) :: later).takeWhile (·.2) = before := by
    rw [takeWhile_append_of_pos all]
    simp
  rw [chance, drop]
  simp only [take]

/-- A queue in which all have a bit, or one has none and those before it have. -/
lemma chance_cases (q : List (α × Bool)) : (∀ y ∈ q, y.2 = true) ∨
    ∃ before x later, q = before ++ (x, false) :: later ∧ ∀ y ∈ before, y.2 = true := by
  cases found : q.dropWhile (·.2) with
  | nil => exact .inl (dropWhile_eq_nil_iff.1 found)
  | cons y later =>
    have bit : y.2 = false := by
      have := List.head?_dropWhile_not (·.2) q
      rw [found] at this
      simpa using this
    refine .inr ⟨q.takeWhile (·.2), y.1, later, ?_, fun z mem => mem_takeWhile_imp mem⟩
    rw [← bit, ← found, takeWhile_append_dropWhile]

lemma chance_perm (q : List (α × Bool)) :
    (q.map Prod.fst).Perm ((chance q).1.toList ++ (chance q).2.map Prod.fst) := by
  have spent_fst (q : List (α × Bool)) : (spent q).map Prod.fst = q.map Prod.fst := by
    simp [spent]
  obtain all | ⟨before, x, later, rfl, all⟩ := chance_cases q
  · rw [chance_none all, Option.toList_none, nil_append, spent_fst]
  · rw [chance_some all, map_append, map_append, spent_fst, map_cons]
    exact perm_middle.trans (.cons x perm_append_comm)

lemma firstTwo_eq (q : List (α × Bool)) : firstTwo q = takes 2 q := by
  rw [takes, takes, takes, append_nil]
  have bits {q : List (α × Bool)} (all : ∀ y ∈ q, y.2 = true) : q.filter (!·.2) = [] :=
    filter_eq_nil_iff.2 fun y mem => by simp [all y mem]
  obtain all | ⟨before, x, later, rfl, all⟩ := chance_cases q
  · rw [firstTwo, bits all, chance_none all]
    cases q with
    | nil => rfl
    | cons y q =>
      rw [spent, map_cons, ← nil_append ((y.1, false) :: _),
        chance_some fun _ mem => absurd mem not_mem_nil]
      rfl
  have take : (before ++ (x, false) :: later).takeWhile (·.2) = before := by
    rw [takeWhile_append_of_pos all]
    simp
  rw [firstTwo, take, filter_append, bits all, nil_append,
    filter_cons_of_pos (by rfl), chance_some all]
  obtain rest | ⟨between, y, later, rfl, rest⟩ := chance_cases later
  · rw [bits rest]
    cases before with
    | nil =>
      rw [spent, map_nil, append_nil, chance_none rest]
      rfl
    | cons b before =>
      rw [spent, map_cons, chance_some rest]
      rfl
  · rw [filter_append, bits rest, nil_append, filter_cons_of_pos (by rfl),
      append_assoc, cons_append, chance_some rest]
    rfl

lemma takes_perm (k : Nat) (q : List (α × Bool)) :
    (q.map Prod.fst).Perm (takes k q ++ (leaves k q).map Prod.fst) := by
  induction k generalizing q with
  | zero => exact .refl _
  | succ k ih =>
    rw [takes, leaves, append_assoc]
    exact (chance_perm q).trans ((ih _).append_left _)

lemma chance_notMem (distinct : (q.map Prod.fst).Nodup) (took : (chance q).1 = some x) :
    x ∉ (chance q).2.map Prod.fst ∧ ∀ k, x ∉ takes k (chance q).2 := by
  rw [(chance_perm q).nodup_iff, took, Option.toList_some, singleton_append, nodup_cons] at distinct
  refine ⟨distinct.1, fun k mem => distinct.1 ?_⟩
  rw [(takes_perm k _).mem_iff]
  exact mem_append_left _ mem

lemma brief_iff (q : List (α × Bool)) : Brief q ↔ (firstTwo q).length = q.length := by
  match q with
  | [] => exact iff_of_true trivial rfl
  | [(x, true)] => exact iff_of_true trivial rfl
  | [(x, false)] => exact iff_of_true trivial rfl
  | [(x, true), (y, true)] => exact iff_of_false nofun nofun
  | [(x, true), (y, false)] => exact iff_of_true rfl rfl
  | [(x, false), (y, true)] => exact iff_of_false nofun nofun
  | [(x, false), (y, false)] => exact iff_of_true rfl rfl
  | x :: y :: z :: q =>
    refine iff_of_false id fun same => ?_
    have : (firstTwo (x :: y :: z :: q)).length ≤ 2 := by
      rw [firstTwo_eq, takes, takes, takes, append_nil, length_append]
      exact Nat.add_le_add Option.length_toList_le Option.length_toList_le
    rw [same] at this
    simp at this

lemma leaves_eq_nil_iff (q : List (α × Bool)) : leaves 2 q = [] ↔ Brief q := by
  have size := (takes_perm 2 q).length_eq
  rw [length_append, length_map, length_map] at size
  rw [brief_iff, firstTwo_eq, ← length_eq_zero_iff]
  omega

end

section
variable {n : Nat} {candidate : Nat → Bool}

lemma slots_succ (hand k : Nat) : slots n hand (k + 1) = hand % n :: slots n (hand + 1) k := by
  rw [slots, range'_succ, map_cons, slots]

lemma slots_add (hand j k : Nat) :
    slots n hand (j + k) = slots n hand j ++ slots n (hand + j) k := by
  rw [slots, ← range'_append_1, map_append, slots, slots]

/-- A turn of the hand brings it to the same slots. -/
lemma slots_turn (hand k : Nat) : slots n (hand + n) k = slots n hand k := by
  induction k generalizing hand with
  | zero => rfl
  | succ k ih =>
    rw [slots_succ, slots_succ, add_mod_right, Nat.add_right_comm, ih]

lemma nodup_slots (hand : Nat) {k} (turn : k ≤ n) : (slots n hand k).Nodup := by
  refine (nodup_map_iff_inj_on nodup_range').2 fun a ha b hb same => ?_
  rw [mem_range'_1] at ha hb
  by_contra ne
  have key : ∀ a b : Nat, hand ≤ a → b < hand + k → a < b → a % n = b % n → False := by
    intro a b ha hb lt same
    have none := sub_mod_eq_zero_of_mod_eq same.symm
    rw [mod_eq_of_lt (by omega)] at none
    omega
  obtain lt | lt := lt_or_gt_of_ne ne
  · exact key a b ha.1 hb.2 lt same
  · exact key b a hb.1 ha.2 lt same.symm

lemma slots_lt (pos : 0 < n) {slot hand k} (mem : slot ∈ slots n hand k) : slot < n := by
  obtain ⟨a, -, rfl⟩ := mem_map.1 mem
  exact mod_lt _ pos

lemma mem_slots (hand : Nat) {slot} (inside : slot < n) : slot ∈ slots n hand n := by
  have parts := div_add_mod hand n
  have small := mod_lt hand (zero_lt_of_lt inside)
  refine mem_map.2 ?_
  by_cases ahead : hand % n ≤ slot
  · refine ⟨n * (hand / n) + slot, mem_range'_1.2 (by omega), ?_⟩
    rw [mul_add_mod, mod_eq_of_lt inside]
  · refine ⟨n * (hand / n + 1) + slot, mem_range'_1.2 ?_, ?_⟩
    · rw [mul_add_one]
      omega
    · rw [mul_add_mod, mod_eq_of_lt inside]

lemma nodup_queue (candidate : Nat → Bool) (c : Face) :
    ((queue n candidate c).map Prod.fst).Nodup := by
  rw [queue, map_map]
  exact (map_id _).symm ▸ (nodup_slots c.hand le_rfl).filter _

/-- It has taken the bits of the slots, and every candidate had one. -/
def Passed (candidate : Nat → Bool) (passed : List Nat) (c c' : Face) : Prop :=
  (∀ slot, c'.referenced slot = (c.referenced slot && decide (slot ∉ passed))) ∧
  ∀ slot ∈ passed, candidate slot = true → c.referenced slot = true

lemma Passed.cons {hand slot passed referenced c c'}
    (h : Passed candidate passed ⟨hand, referenced⟩ c')
    (bits : ∀ r, referenced r = (c.referenced r && decide (r ≠ slot)))
    (bit : candidate slot = true → c.referenced slot = true) :
    Passed candidate (slot :: passed) c c' := by
  refine ⟨fun r => ?_, fun r mem cand => ?_⟩
  · rw [h.1 r]
    dsimp only
    rw [bits r]
    by_cases first : r = slot <;> by_cases mem : r ∈ passed <;> simp [first, mem]
  · obtain rfl | mem := mem_cons.1 mem
    · exact bit cand
    · have bit : referenced r = true := h.2 r mem cand
      rw [bits r, Bool.and_eq_true] at bit
      exact bit.1

/-- What a sweep over `k` slots comes to. -/
def Swept (n : Nat) (candidate : Nat → Bool) (k : Nat) (c : Face) (out : Face × Option Nat) :
    Prop :=
  (out.2 = none ∧ out.1.hand = c.hand + k ∧ Passed candidate (slots n c.hand k) c out.1) ∨
  ∃ j < k, out.2 = some ((c.hand + j) % n) ∧ out.1.hand = c.hand + j + 1 ∧
    Passed candidate (slots n c.hand j) c out.1 ∧
    candidate ((c.hand + j) % n) = true ∧ c.referenced ((c.hand + j) % n) = false

lemma Swept.on {k c referenced out} (turn : k + 1 ≤ n)
    (bits : ∀ r, referenced r = (c.referenced r && decide (r ≠ c.hand % n)))
    (bit : candidate (c.hand % n) = true → c.referenced (c.hand % n) = true)
    (swept : Swept n candidate k ⟨c.hand + 1, referenced⟩ out) :
    Swept n candidate (k + 1) c out := by
  obtain ⟨none, hand, passed⟩ | ⟨j, lt, some, hand, passed, cand, free⟩ := swept
  · refine .inl ⟨none, ?_, ?_⟩
    · rw [hand, Nat.add_right_comm, Nat.add_assoc]
    · rw [slots_succ]
      exact passed.cons bits bit
  · have later : c.hand + 1 + j = c.hand + (j + 1) := by omega
    simp only [later] at some cand free
    refine .inr ⟨j + 1, by omega, some, ?_, ?_, cand, ?_⟩
    · rw [hand, later]
    · rw [slots_succ]
      exact passed.cons bits bit
    · rw [bits, Bool.and_eq_false_iff] at free
      refine free.resolve_right fun same => ?_
      have distinct := nodup_slots (n := n) c.hand turn
      rw [slots_succ, nodup_cons] at distinct
      refine distinct.1 (mem_map.2 ⟨c.hand + (j + 1), mem_range'_1.2 (by omega), ?_⟩)
      simpa using same

lemma sweep_spec {k} (turn : k ≤ n) (c : Face) : Swept n candidate k c (sweep n candidate k c) := by
  induction k generalizing c with
  | zero => exact .inl ⟨rfl, rfl, fun _ => by simp [slots, sweep], nofun⟩
  | succ k ih =>
    rw [sweep]
    split
    · next bit =>
      refine .on turn (fun r => ?_) (fun _ => bit) (ih (by omega) _)
      by_cases same : r = c.hand % n
      all_goals simp [same]
    split
    · next bit cand =>
      exact .inr ⟨0, by omega, rfl, rfl, ⟨fun _ => by simp [slots], nofun⟩,
          cand, by simpa using bit⟩
    · next bit cand =>
      refine .on turn (fun r => ?_) (fun h => absurd h cand) (ih (by omega) _)
      by_cases same : r = c.hand % n
      · simp [same, bit]
      · simp [same]

/-- A sweep is a chance of the queue; what it takes is a candidate no more. -/
theorem sweep_queue (pos : 0 < n) (c : Face) {candidate'} (without : ∀ slot < n, candidate' slot =
      (candidate slot && decide ((sweep n candidate n c).2 ≠ some slot))) :
    (sweep n candidate n c).2 = (chance (queue n candidate c)).1 ∧
    queue n candidate' (sweep n candidate n c).1 = (chance (queue n candidate c)).2 := by
  obtain ⟨none, hand, passed⟩ | ⟨j, lt, some, hand, passed, cand, bit⟩ := sweep_spec le_rfl c
  · have all : ∀ y ∈ queue n candidate c, y.2 = true := by
      intro y mem
      obtain ⟨slot, member, rfl⟩ := mem_map.1 mem
      obtain ⟨there, cand⟩ := mem_filter.1 member
      exact passed.2 slot there cand
    have same : (slots n c.hand n).filter candidate' = (slots n c.hand n).filter candidate := by
      refine filter_congr fun slot mem => ?_
      rw [without slot (slots_lt pos mem), none]
      simp
    rw [chance_none all, none]
    refine ⟨rfl, ?_⟩
    rw [queue, hand, slots_turn, same, spent, queue, map_map]
    refine map_congr_left fun slot mem => ?_
    rw [passed.1 slot]
    simp [(mem_filter.1 mem).1]
  · -- the slots before the one that is taken, and those after it
    set x := (c.hand + j) % n
    set earlier := slots n c.hand j
    set rest := slots n (c.hand + j + 1) (n - j - 1)
    have one : slots n (c.hand + j) 1 = [x] := rfl
    have order : slots n c.hand n = earlier ++ x :: rest := by
      have : n = j + (1 + (n - j - 1)) := by omega
      rw [this, slots_add, slots_add, ← this, one]
      rfl
    have turned : slots n (c.hand + j + 1) n = rest ++ (earlier ++ [x]) := by
      have : n = (n - j - 1) + (j + 1) := by omega
      rw [this, slots_add, ← this, show c.hand + j + 1 + (n - j - 1) = c.hand + n by omega,
        slots_turn, slots_add, one]
    have distinct := nodup_slots (n := n) c.hand le_rfl
    rw [order, nodup_append, nodup_cons] at distinct
    obtain ⟨-, ⟨notRest, -⟩, apart⟩ := distinct
    have first : queue n candidate c =
        (earlier.filter candidate).map (fun slot => (slot, c.referenced slot)) ++
          (x, false) :: (rest.filter candidate).map (fun slot => (slot, c.referenced slot)) := by
      rw [queue, order, filter_append, filter_cons_of_pos cand, map_append, map_cons, bit]
    have all : ∀ y ∈ (earlier.filter candidate).map (fun slot => (slot, c.referenced slot)),
        y.2 = true := by
      intro y mem
      obtain ⟨slot, member, rfl⟩ := mem_map.1 mem
      obtain ⟨there, cand⟩ := mem_filter.1 member
      exact passed.2 slot there cand
    have keeps {list : List Nat} (within : ∀ slot ∈ list, slot < n) (other : x ∉ list) :
        list.filter candidate' = list.filter candidate := by
      refine filter_congr fun slot mem => ?_
      rw [without slot (within slot mem), some]
      have : x ≠ slot := fun same => other (same ▸ mem)
      simp [this]
    have notEarlier : x ∉ earlier := fun mem => apart x mem x mem_cons_self rfl
    have gone : candidate' x = false := by
      rw [without x (mod_lt _ pos), some]
      simp
    rw [first, chance_some all, some]
    refine ⟨rfl, ?_⟩
    rw [queue, hand, turned, filter_append, filter_append,
      keeps (fun slot => slots_lt pos) notRest, keeps (fun slot => slots_lt pos) notEarlier,
      filter_cons_of_neg (by simp [gone]), filter_nil, append_nil, map_append,
      spent, map_map]
    refine congrArg₂ (· ++ ·) ?_ ?_
    · refine map_congr_left fun slot mem => ?_
      have : slot ∉ earlier := fun mem' =>
        apart slot mem' slot (mem_cons_of_mem _ (mem_filter.1 mem).1) rfl
      rw [passed.1 slot]
      simp [this]
    · refine map_congr_left fun slot mem => ?_
      have there : slot ∈ earlier := (mem_filter.1 mem).1
      rw [passed.1 slot]
      simp [there]

end

section
variable {α : Type}

/-- How often each member is still to be visited, from the next one on: some once more than the
others. -/
def Fair (visits : List (α × Nat)) : Prop :=
  ∃ (k : Nat) (before after : List α), visits = before.map (·, k + 1) ++ after.map (·, k)

lemma fair_all (l : List α) (k : Nat) : Fair (l.map (·, k)) := ⟨k, [], l, rfl⟩

lemma Fair.next {visits : List (α × Nat)} (fair : Fair visits)
    (some : 0 < (visits.map Prod.snd).sum) :
    ∃ a k rest, visits = (a, k + 1) :: rest ∧ ∀ b, Fair (rest ++ [(b, k)]) := by
  obtain ⟨k, before, after, rfl⟩ := fair
  cases before with
  | cons a before =>
    refine ⟨a, k, before.map (·, k + 1) ++ after.map (·, k), rfl, fun b =>
        ⟨k, before, after ++ [b], ?_⟩⟩
    rw [map_append, append_assoc]
    rfl
  | nil =>
    cases after with
    | nil => exact absurd some (lt_irrefl 0)
    | cons a after =>
      cases k with
      | zero =>
        have none (l : List α) : ((l.map ((·, 0) : α → α × Nat)).map Prod.snd).sum = 0 := by
          induction l with
          | nil => rfl
          | cons a l ih =>
            rw [map_cons, map_cons, sum_cons, ih]
        exact absurd (none (a :: after)) (ne_of_gt some)
      | succ k => exact ⟨a, k, after.map (·, k + 1), rfl, fun b => ⟨k, after, [b], rfl⟩⟩

/-- Round robin, seen from the next place. -/
lemma rotate_set {l : List α} {i a} (found : l[i % l.length]? = some a)
    (b : α) : ∃ rest, l.rotate i = a :: rest ∧
    (l.set (i % l.length) b).rotate (i + 1) = rest ++ [b] := by
  obtain ⟨lt, rfl⟩ := List.getElem?_eq_some_iff.1 found
  refine ⟨l.drop (i % l.length + 1) ++ l.take (i % l.length), ?_, ?_⟩
  · rw [rotate_eq_drop_append_take_mod, drop_eq_getElem_cons lt, cons_append]
  · have turned : (l.set (i % l.length) b).rotate i =
        b :: (l.drop (i % l.length + 1) ++ l.take (i % l.length)) := by
      rw [rotate_eq_drop_append_take_mod, length_set, drop_eq_getElem_cons (by simpa),
          drop_set_of_lt (lt_succ_self _), take_set_of_le (le_refl _)]
      simp
    rw [← rotate_rotate, turned, rotate_cons_succ, rotate_zero]

end

end Clock
