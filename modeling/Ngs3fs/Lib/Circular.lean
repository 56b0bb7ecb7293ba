import Mathlib.Data.List.Chain

/-!
# Circular doubly linked lists

Nodes with a pointer to the next and to the previous one, and the list of the nodes in the order in
which they are met from one of them on. -/

namespace Circular
open List Function

structure Links (α : Type) where
  next : α → Option α
  prev : α → Option α

variable {α : Type}

def Links.Linked (p : Links α) (x y : α) : Prop := p.next x = some y ∧ p.prev y = some x

/-- The two pointers of a neighbour are each other's inverse, and so around the end. -/
structure Around (p : Links α) (l : List α) : Prop where
  nodup : l.Nodup
  path : l.IsChain p.Linked
  closed : ∀ x ∈ l.getLast?, ∀ y ∈ l.head?, p.Linked x y

variable {p q : Links α} {l m : List α} {x y : α}

lemma Around.nil : Around p [] := ⟨nodup_nil, .nil, nofun⟩

lemma around_append (hl : l ≠ []) (hm : m ≠ []) : Around p (l ++ m) ↔
    (l ++ m).Nodup ∧ (l.IsChain p.Linked ∧ m.IsChain p.Linked) ∧
    (∀ x ∈ l.getLast?, ∀ y ∈ m.head?, p.Linked x y) ∧
    (∀ x ∈ m.getLast?, ∀ y ∈ l.head?, p.Linked x y) := by
  have last : (l ++ m).getLast? = m.getLast? := getLast?_append_of_ne_nil _ hm
  have head : (l ++ m).head? = l.head? := head?_append_of_ne_nil _ hl
  constructor
  · rintro ⟨nodup, path, closed⟩
    obtain ⟨first, second, joint⟩ := isChain_append.1 path
    rw [last, head] at closed
    exact ⟨nodup, ⟨first, second⟩, joint, closed⟩
  · rintro ⟨nodup, ⟨first, second⟩, joint, closed⟩
    exact ⟨nodup, first.append second joint, by rwa [last, head]⟩

lemma Around.rotate (h : Around p (l ++ m)) : Around p (m ++ l) := by
  by_cases hl : l = []
  · rwa [hl, append_nil, ← nil_append m, ← hl]
  by_cases hm : m = []
  · rwa [hm, nil_append, ← append_nil l, ← hm]
  obtain ⟨nodup, ⟨first, second⟩, joint, closed⟩ := (around_append hl hm).1 h
  exact (around_append hm hl).2 ⟨perm_append_comm.nodup_iff.1 nodup, ⟨second, first⟩, closed, joint⟩

/-- A path does not read the next of its last node or the previous of its first. -/
lemma path_congr (path : l.IsChain p.Linked) (nodup : l.Nodup)
    (next : ∀ x ∈ l, x ∉ l.getLast? → q.next x = p.next x)
    (prev : ∀ x ∈ l, x ∉ l.head? → q.prev x = p.prev x) : l.IsChain q.Linked := by
  induction l with
  | nil => exact .nil
  | cons a l ih =>
    cases l with
    | nil => exact .singleton _
    | cons b l =>
      obtain ⟨⟨hNext, hPrev⟩, rest⟩ := isChain_cons_cons.1 path
      obtain ⟨apart, nodup⟩ := nodup_cons.1 nodup
      rw [getLast?_cons_cons] at next
      refine isChain_cons_cons.2 ⟨⟨?_, ?_⟩, ih rest nodup ?_ ?_⟩
      · rw [next a mem_cons_self fun last => apart (mem_of_mem_getLast? last), hNext]
      · rw [prev b (mem_cons_of_mem _ mem_cons_self) ?_, hPrev]
        rintro ⟨⟩
        exact apart mem_cons_self
      · exact fun x mem last => next x (mem_cons_of_mem _ mem) last
      · intro x mem _
        refine prev x (mem_cons_of_mem _ mem) ?_
        rintro ⟨⟩
        exact apart mem

variable [DecidableEq α]

namespace Links

/-- A node between the last and the first. -/
def insert (p : Links α) (tail node hand : α) : Links α where
  next := update (update p.next node (some hand)) tail (some node)
  prev := update (update p.prev node (some tail)) hand (some node)

def clear (p : Links α) (node : α) : Links α where
  next := update p.next node none
  prev := update p.prev node none

def bypass (p : Links α) (before after : α) : Links α where
  next := update p.next before (some after)
  prev := update p.prev after (some before)

end Links

omit [DecidableEq α] in
lemma ne_of_mem_head? (first : y ∈ l.head?) (other : x ∉ l.head?) : x ≠ y :=
  fun h => other (h ▸ first)

omit [DecidableEq α] in
lemma ne_of_mem_getLast? (last : y ∈ l.getLast?) (other : x ∉ l.getLast?) : x ≠ y :=
  fun h => other (h ▸ last)

lemma Around.insert (h : Around p l) {hand tail node} (first : hand ∈ l.head?)
    (last : tail ∈ l.getLast?) (new : node ∉ l) :
    Around (p.insert tail node hand) (l ++ [node]) := by
  have apart {x : α} (mem : x ∈ l) : x ≠ node := fun same => new (same ▸ mem)
  have neHand := (apart (mem_of_mem_head? first)).symm
  have neTail := (apart (mem_of_mem_getLast? last)).symm
  have some : l ≠ [] := ne_nil_of_mem (mem_of_mem_head? first)
  refine (around_append some (cons_ne_nil _ _)).2 ⟨?_,
    ⟨path_congr h.path h.nodup ?_ ?_, .singleton _⟩,
    ?_, ?_⟩
  · exact nodup_append.2 ⟨h.nodup, pairwise_singleton _ _, fun x mem y new =>
      mem_singleton.1 new ▸ apart mem⟩
  · intro x mem other
    have neLast := ne_of_mem_getLast? last other
    exact (update_of_ne neLast ..).trans (update_of_ne (apart mem) ..)
  · intro x mem other
    have neFirst := ne_of_mem_head? first other
    exact (update_of_ne neFirst ..).trans (update_of_ne (apart mem) ..)
  · rintro x hx y ⟨⟩
    cases Option.mem_unique hx last
    exact ⟨update_self .., (update_of_ne neHand ..).trans (update_self ..)⟩
  · rintro x ⟨⟩ y hy
    cases Option.mem_unique hy first
    exact ⟨(update_of_ne neTail ..).trans (update_self ..), update_self ..⟩

lemma Around.single (p : Links α) (node : α) : Around (p.insert node node node) [node] := by
  refine ⟨pairwise_singleton _ _, .singleton _, ?_⟩
  rintro x ⟨⟩ y ⟨⟩
  exact ⟨update_self .., update_self ..⟩

lemma Around.remove {node} (h : Around p (node :: l)) (some' : l ≠ []) :
    ∃ before after, p.prev node = some before ∧ p.next node = some after ∧ after ∈ l.head? ∧
      Around ((p.bypass before after).clear node) l := by
  obtain ⟨nodup, ⟨-, path⟩, joint, closed⟩ := (around_append (cons_ne_nil node []) some').1 h
  obtain ⟨new, nodup⟩ := nodup_cons.1 nodup
  have last := getLast?_eq_some_getLast some'
  have first := head?_eq_some_head some'
  have apart {x : α} (mem : x ∈ l) : x ≠ node := fun same => new (same ▸ mem)
  refine ⟨_, _, (closed _ last node rfl).2, (joint node rfl _ first).1, first, nodup, ?_, ?_⟩
  · refine path_congr path nodup ?_ ?_
    · intro x mem other
      have neLast := ne_of_mem_getLast? last other
      exact (update_of_ne (apart mem) ..).trans (update_of_ne neLast ..)
    · intro x mem other
      have neFirst := ne_of_mem_head? first other
      exact (update_of_ne (apart mem) ..).trans (update_of_ne neFirst ..)
  · intro x hx y hy
    have memX := apart (mem_of_mem_getLast? hx)
    have memY := apart (mem_of_mem_head? hy)
    cases Option.mem_unique hx last
    cases Option.mem_unique hy first
    exact ⟨(update_of_ne memX ..).trans (update_self ..),
      (update_of_ne memY ..).trans (update_self ..)⟩

end Circular
