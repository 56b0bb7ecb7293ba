import Ngs3fs.Lib.Machine
import Ngs3fs.Lib.Sums

/-!
# Threads over a shared memory

A thread is known by its phase; a step takes one thread to its next phase and changes the memory
with it. An invariant may count the threads by their phases. To keep it, a step has to know only the
thread that moves, whatever the rest is. -/

namespace Threads

structure System (μ π : Type) where
  memory : μ
  threads : List π

variable {μ π α κ : Type} (next : μ → π → α → Option (μ × π)) (weight : π → κ → Nat)

def step (s : System μ π) (a : Nat × α) : Option (System μ π) :=
  s.threads[a.1]?.bind fun p =>
    (next s.memory p a.2).map fun n => ⟨n.1, s.threads.set a.1 n.2⟩

def total (threads : List π) (k : κ) : Nat := (threads.map fun p => weight p k).sum

variable {next weight} {threads : List π} {k : κ} {p : π}

lemma le_total (mem : p ∈ threads) : weight p k ≤ total weight threads k := by
  obtain ⟨i, found⟩ := List.mem_iff_getElem?.1 mem
  rw [total, ← Sums.sum_map_eraseIdx (fun p => weight p k) found]
  exact Nat.le_add_right ..

lemma total_eq_zero (none : ∀ p ∈ threads, weight p k = 0) : total weight threads k = 0 := by
  refine List.sum_eq_zero fun n mem => ?_
  obtain ⟨p, found, rfl⟩ := List.mem_map.1 mem
  exact none p found

lemma total_eq_countP {b} (is : ∀ p, weight p k = (b p).toNat) :
    total weight threads k = threads.countP b := by
  induction threads with
  | nil => rfl
  | cons p threads ih =>
    show weight p k + total weight threads k = _
    rw [ih, is, List.countP_cons, Nat.add_comm]
    cases b p <;> rfl

/-- What a step keeps whatever the other threads are, every run keeps. -/
lemma run_total {Good : μ → (κ → Nat) → Prop}
    (keep : ∀ {m p a m' q} (rest : κ → Nat), Good m (fun k => weight p k + rest k) →
      next m p a = some (m', q) → Good m' fun k => weight q k + rest k)
    {s s' as} (good : Good s.memory (total weight s.threads))
    (run : Machine.run (step next) s as = some s') : Good s'.memory (total weight s'.threads) := by
  refine Machine.run_inv (I := fun s => Good s.memory (total weight s.threads)) ?_ good run
  intro s a s' good steps
  obtain ⟨p, found, moves⟩ := Option.bind_eq_some_iff.1 steps
  obtain ⟨⟨m', q⟩, goes, rfl⟩ := Option.map_eq_some_iff.1 moves
  let rest : κ → Nat := fun k => total weight (s.threads.eraseIdx a.1) k
  have before : total weight s.threads = fun k => weight p k + rest k :=
    funext fun k => (Sums.sum_map_eraseIdx (fun p => weight p k) found).symm
  have after : total weight (s.threads.set a.1 q) = fun k => weight q k + rest k := by
    funext k
    have sums := Sums.sum_map_set (fun p => weight p k) q found
    have old := congrFun before k
    simp only [total] at old ⊢
    omega
  show Good m' (total weight (s.threads.set a.1 q))
  rw [after]
  exact keep rest (before ▸ good) goes

end Threads
