import Ngs3fs.Parts.Budget

/-!
# Waiting for part memory

A blocking writer draws a ticket and sleeps on the condition variable until its number is served. A
write on a reactor is refused, registers in `budget_reactor_waiters`, tries again and then reads
one token of `budget_event`; a release adds a token for each registered write. Both refuse to pass
a writer that waits with a ticket. A release and a reactor write are cut at every point at which
another thread can go on. A registered write that a ticket keeps from a free part may sleep for
ever: serving the ticket signals only the condition variable (`Passed` excludes that). -/

namespace Ngs3fs.Parts
open Machine List Option

/-- From its first refusal in `reserve` on. -/
inductive Stage where
  /-- before it registers -/
  | refused
  /-- before it tries again -/
  | registered
  /-- before it takes its registration back, with its memory -/
  | granted
  /-- it reads the event -/
  | parked
  /-- before it takes its registration back, with a token -/
  | woken
  deriving DecidableEq

def Stage.sleeps : Stage → Nat
  | .parked => 1
  | _ => 0

def Stage.counts : Stage → Nat
  | .refused => 0
  | _ => 1

/-- A running release is `none` before it has read the number of registered writes. -/
structure Admission extends budget : Budget where
  /-- tickets that wait -/
  tickets : List Nat
  /-- tickets that have been served, in that order -/
  served : List Nat
  reactors : List Stage
  budgetReactorWaiters : Nat
  tokens : Nat
  releases : List (Option Nat)

inductive Move where
  | block
  | serve (ticket : Nat)
  | attempt
  | register (i : Nat)
  | retry (i : Nat)
  | take (i : Nat)
  | leave (i : Nat)
  | cancel (i : Nat)
  | release
  | load (j : Nat)
  | write (j : Nat)
  deriving DecidableEq

namespace Admission

def initial : Admission where
  budget := ⟨0, 0, 0, 0, false⟩
  tickets := []
  served := []
  reactors := []
  budgetReactorWaiters := 0
  tokens := 0
  releases := []

variable (c : Config)

/-- `reserve` and `release`, cut into moves. -/
def step (s : Admission) : Move → Option Admission
  | .block =>
    if s.open? c then some { s with budget := s.pin c }
    else some { s with budget := s.budget.queue, tickets := s.tickets ++ [s.nextTicket] }
  | .serve ticket =>
    if ticket ∈ s.tickets ∧ ticket = s.servingTicket ∧ s.available c then
      some { s with
        budget := s.serve c
        tickets := s.tickets.erase ticket
        served := s.served ++ [ticket] }
    else none
  | .attempt =>
    if s.open? c then some { s with budget := s.pin c }
    else some { s with reactors := s.reactors ++ [.refused] }
  | .register i =>
    if s.reactors[i]? = some .refused then
      some { s with
        reactors := s.reactors.set i .registered
        budgetReactorWaiters := s.budgetReactorWaiters + 1 }
    else none
  | .retry i =>
    if s.reactors[i]? = some .registered then
      if s.open? c then
        some { s with budget := s.pin c, reactors := s.reactors.set i .granted }
      else some { s with reactors := s.reactors.set i .parked }
    else none
  | .take i =>
    if s.reactors[i]? = some .parked ∧ 0 < s.tokens then
      some { s with reactors := s.reactors.set i .woken, tokens := s.tokens - 1 }
    else none
  | .leave i =>
    if s.reactors[i]? = some .granted ∨ s.reactors[i]? = some .woken then
      some { s with
        reactors := s.reactors.eraseIdx i
        budgetReactorWaiters := s.budgetReactorWaiters - 1 }
    else none
  | .cancel i =>
    if s.reactors[i]? = some .parked then
      some { s with
        reactors := s.reactors.eraseIdx i
        budgetReactorWaiters := s.budgetReactorWaiters - 1 }
    else none
  | .release => some { s with budget := s.budget.release c, releases := s.releases ++ [none] }
  | .load j =>
    if s.releases[j]? = some none then
      some { s with releases := s.releases.set j (some s.budgetReactorWaiters) }
    else none
  | .write j =>
    match s.releases[j]? with
    | some (some wake) =>
      some { s with releases := s.releases.eraseIdx j, tokens := s.tokens + wake }
    | _ => none

def Stranded (s : Admission) : Prop :=
  .parked ∈ s.reactors ∧ s.tokens = 0 ∧ s.waitingWriters = 0 ∧
    s.available c = true ∧ s.releases = []

instance (s : Admission) : Decidable (s.Stranded c) := inferInstanceAs (Decidable (_ ∧ _))

def Passed (s : Admission) : Move → Prop
  | .retry _ => s.available c = true → s.waitingWriters = 0
  | _ => True

def parked (s : Admission) : Nat := (s.reactors.map Stage.sleeps).sum

def registered (s : Admission) : Nat := (s.reactors.map Stage.counts).sum

def pending (s : Admission) : Nat := (s.releases.map fun wake => wake.getD 0).sum

/-- Tickets are served in order, the memory is bounded, and registered writes are counted. -/
structure Orderly (s : Admission) : Prop where
  tickets : s.tickets = range' s.servingTicket s.waitingWriters
  issued : s.nextTicket = s.servingTicket + s.waitingWriters
  served : s.served = range s.servingTicket
  bounded : s.pinnedBytes ≤ c.maxPinnedMemory
  counted : s.budgetReactorWaiters = s.registered

/-- While a part is free, every write that sleeps has a token, or a release is about to write one.
-/
def Awake (s : Admission) : Prop :=
  s.available c = true → none ∈ s.releases ∨ s.parked ≤ s.tokens + s.pending

section
variable {c} {s s' : Admission}

lemma parked_le_registered (s : Admission) : s.parked ≤ s.registered := by
  rw [parked, registered]
  induction s.reactors with
  | nil => exact Nat.le_refl _
  | cons g reactors ih =>
    rw [map_cons, sum_cons, map_cons, sum_cons]
    refine Nat.add_le_add ?_ ih
    cases g <;> decide

lemma available_iff (b : Budget) :
    b.available c = true ↔ b.pinnedBytes + c.partSize ≤ c.maxPinnedMemory := by
  have := c.part_le
  rw [Budget.available, decide_eq_true_eq]
  omega

lemma open_iff (b : Budget) : b.open? c = true ↔ b.available c = true ∧ b.waitingWriters = 0 := by
  rw [Budget.open?, Bool.and_eq_true, beq_iff_eq]

variable {b : Budget}

lemma pin_bounded (available : b.available c = true) :
    (b.pin c).pinnedBytes ≤ c.maxPinnedMemory := (available_iff b).1 available

variable {act : Move}

lemma Orderly.without (inv : Orderly c s) {i stage} (found : s.reactors[i]? = some stage)
    (counts : stage.counts = 1) :
    s.budgetReactorWaiters - 1 = ((s.reactors.eraseIdx i).map Stage.counts).sum := by
  have sum := Sums.sum_map_eraseIdx Stage.counts found
  rw [inv.counted, Admission.registered, ← sum, counts, Nat.add_sub_cancel_left]

lemma Orderly.step (inv : Orderly c s) (h : s.step c act = some s') : Orderly c s' := by
  cases act with
  | block =>
    simp only [Admission.step] at h
    split at h
    · rename_i free
      cases h
      exact { inv with bounded := pin_bounded ((open_iff _).1 free).1 }
    · cases h
      refine { inv with tickets := ?_, issued := ?_ }
      · change s.tickets ++ [s.nextTicket] = range' s.servingTicket (s.waitingWriters + 1)
        rw [inv.tickets, inv.issued, range'_concat, Nat.one_mul]
      · change s.nextTicket + 1 = s.servingTicket + (s.waitingWriters + 1)
        rw [inv.issued]
        rfl
  | serve ticket =>
    obtain ⟨guard, h⟩ := ite_none_right_eq_some.1 h
    obtain ⟨mem, rfl, available⟩ := guard
    cases h
    -- the one that is served stands first
    have waits : 0 < s.waitingWriters := by
      by_contra none
      rw [inv.tickets, Nat.eq_zero_of_not_pos none] at mem
      cases mem
    obtain ⟨n, some⟩ := Nat.exists_eq_succ_of_ne_zero (Nat.ne_of_gt waits)
    have issued := inv.issued
    refine ⟨?_, ?_, ?_, pin_bounded available, inv.counted⟩
    · change s.tickets.erase s.servingTicket = range' (s.servingTicket + 1) (s.waitingWriters - 1)
      rw [inv.tickets, some, range'_succ, erase_cons_head]
      rfl
    · change s.nextTicket = s.servingTicket + 1 + (s.waitingWriters - 1)
      omega
    · change s.served ++ [s.servingTicket] = range (s.servingTicket + 1)
      rw [inv.served, range_succ]
  | attempt =>
    simp only [Admission.step] at h
    split at h
    · rename_i free
      cases h
      exact { inv with bounded := pin_bounded ((open_iff _).1 free).1 }
    · cases h
      refine { inv with counted := ?_ }
      exact inv.counted.trans (Sums.sum_map_concat Stage.counts s.reactors .refused).symm
  | register i =>
    obtain ⟨found, ⟨⟩⟩ := ite_none_right_eq_some.1 h
    have counts := Sums.sum_map_set Stage.counts .registered found
    refine { inv with counted := ?_ }
    exact (congrArg (· + 1) inv.counted).trans counts.symm
  | retry i =>
    obtain ⟨found, h⟩ := ite_none_right_eq_some.1 h
    split at h
    · rename_i free
      cases h
      have counts := Sums.sum_map_set Stage.counts .granted found
      refine { inv with bounded := pin_bounded ((open_iff _).1 free).1, counted := ?_ }
      exact inv.counted.trans (Nat.succ.inj counts).symm
    · cases h
      have counts := Sums.sum_map_set Stage.counts .parked found
      refine { inv with counted := ?_ }
      exact inv.counted.trans (Nat.succ.inj counts).symm
  | take i =>
    obtain ⟨guard, ⟨⟩⟩ := ite_none_right_eq_some.1 h
    have counts := Sums.sum_map_set Stage.counts .woken guard.1
    refine { inv with counted := ?_ }
    exact inv.counted.trans (Nat.succ.inj counts).symm
  | leave i =>
    obtain ⟨found, ⟨⟩⟩ := ite_none_right_eq_some.1 h
    rcases found with found | found
    all_goals exact { inv with counted := inv.without found rfl }
  | cancel i =>
    obtain ⟨found, ⟨⟩⟩ := ite_none_right_eq_some.1 h
    exact { inv with counted := inv.without found rfl }
  | release =>
    cases h
    unfold Budget.release
    split
    · exact { inv with bounded := Nat.zero_le _ }
    · exact { inv with bounded := Nat.le_trans (Nat.sub_le _ _) inv.bounded }
  | load j | write j =>
    simp only [Admission.step] at h
    split at h
    · cases h
      exact { inv with }
    · cases h

lemma Awake.mono (awake : s.Awake c)
    (free : s'.available c = true → s.available c = true)
    (releases : s'.releases = s.releases) (asleep : s'.parked + s.tokens ≤ s.parked + s'.tokens) :
    s'.Awake c := by
  intro available
  rw [pending, releases]
  rcases awake (free available) with reading | enough
  · exact .inl reading
  · rw [pending] at enough
    exact .inr (by omega)

lemma available_of_pin {waiting serving}
    (free : Budget.available c
      { b.pin c with waitingWriters := waiting, servingTicket := serving } = true) :
    b.available c = true := by
  rw [available_iff] at free ⊢
  have : b.pinnedBytes + c.partSize + c.partSize ≤ c.maxPinnedMemory := free
  omega

lemma Awake.step (inv : Orderly c s) (awake : s.Awake c) (passed : s.Passed c act)
    (h : s.step c act = some s') : s'.Awake c := by
  cases act with
  | block =>
    simp only [Admission.step] at h
    split at h
    · cases h
      exact awake.mono available_of_pin rfl (Nat.le_refl _)
    · cases h
      exact awake.mono id rfl (Nat.le_refl _)
  | serve ticket =>
    obtain ⟨-, ⟨⟩⟩ := ite_none_right_eq_some.1 h
    exact awake.mono available_of_pin rfl (Nat.le_refl _)
  | attempt =>
    simp only [Admission.step] at h
    split at h
    · cases h
      exact awake.mono available_of_pin rfl (Nat.le_refl _)
    · cases h
      have sleeps := Sums.sum_map_concat Stage.sleeps s.reactors .refused
      exact awake.mono id rfl (Nat.le_of_eq (congrArg (· + s.tokens) sleeps))
  | register i =>
    obtain ⟨found, ⟨⟩⟩ := ite_none_right_eq_some.1 h
    have sleeps := Sums.sum_map_set Stage.sleeps .registered found
    exact awake.mono id rfl (Nat.le_of_eq (congrArg (· + s.tokens) sleeps))
  | retry i =>
    obtain ⟨found, h⟩ := ite_none_right_eq_some.1 h
    split at h
    · cases h
      have sleeps := Sums.sum_map_set Stage.sleeps .granted found
      exact awake.mono available_of_pin rfl (Nat.le_of_eq (congrArg (· + s.tokens) sleeps))
    · rename_i refused
      cases h
      intro available
      exact absurd ((open_iff _).2 ⟨available, passed available⟩) refused
  | take i =>
    obtain ⟨guard, ⟨⟩⟩ := ite_none_right_eq_some.1 h
    have sleeps : ((s.reactors.set i .woken).map Stage.sleeps).sum + 1 = s.parked :=
      Sums.sum_map_set Stage.sleeps .woken guard.1
    refine awake.mono id rfl ?_
    change ((s.reactors.set i .woken).map Stage.sleeps).sum + s.tokens ≤ s.parked + (s.tokens - 1)
    have := guard.2
    omega
  | leave i =>
    obtain ⟨found, ⟨⟩⟩ := ite_none_right_eq_some.1 h
    refine awake.mono id rfl (Nat.add_le_add_right ?_ _)
    rcases found with found | found
    all_goals
      exact Nat.le_of_eq ((Nat.zero_add _).symm.trans (Sums.sum_map_eraseIdx Stage.sleeps found))
  | cancel i =>
    obtain ⟨found, ⟨⟩⟩ := ite_none_right_eq_some.1 h
    have sleeps : 1 + ((s.reactors.eraseIdx i).map Stage.sleeps).sum = s.parked :=
      Sums.sum_map_eraseIdx Stage.sleeps found
    refine awake.mono id rfl (Nat.add_le_add_right ?_ _)
    rw [← sleeps]
    exact Nat.le_add_left _ _
  | release =>
    cases h
    exact fun _ => .inl (mem_append_right _ mem_cons_self)
  | load j =>
    obtain ⟨found, ⟨⟩⟩ := ite_none_right_eq_some.1 h
    -- everyone who sleeps is registered
    have tokens : s.budgetReactorWaiters ≤ Admission.pending { s with
        releases := s.releases.set j (some s.budgetReactorWaiters) } := by
      have sum := Sums.sum_map_set (fun wake : Option Nat => wake.getD 0)
        (some s.budgetReactorWaiters) found
      rw [pending]
      exact Nat.le_trans (Nat.le_add_left _ _) (Nat.le_of_eq sum.symm)
    refine fun _ => .inr ?_
    have asleep := s.parked_le_registered
    rw [← inv.counted] at asleep
    exact Nat.le_trans asleep (Nat.le_trans tokens (Nat.le_add_left _ _))
  | write j =>
    simp only [Admission.step] at h
    split at h
    · rename_i wake found
      cases h
      have sum : wake + ((s.releases.eraseIdx j).map fun wake => wake.getD 0).sum = s.pending :=
        Sums.sum_map_eraseIdx (fun wake : Option Nat => wake.getD 0) found
      intro available
      rcases awake available with reading | enough
      · refine .inl (mem_eraseIdx_iff_getElem?.2 ?_)
        obtain ⟨k, reading⟩ := mem_iff_getElem?.1 reading
        refine ⟨k, fun same => ?_, reading⟩
        rw [same, found] at reading
        cases reading
      · refine .inr (Nat.le_trans enough (Nat.le_of_eq ?_))
        rw [← sum, Nat.add_assoc]
        rfl
    · cases h

lemma initial_orderly : Orderly c initial :=
  ⟨rfl, rfl, rfl, Nat.zero_le _, rfl⟩

lemma initial_awake : initial.Awake c := fun _ => .inr (Nat.le_refl _)

lemma waitingWriters_step (h : s.step c act = some s') (none : s.waitingWriters = 0)
    (unmixed : act ≠ .block) : s'.waitingWriters = 0 := by
  cases act with
  | block => exact absurd rfl unmixed
  | serve ticket =>
    obtain ⟨-, ⟨⟩⟩ := ite_none_right_eq_some.1 h
    change s.waitingWriters - 1 = 0
    rw [none]
  | attempt =>
    simp only [Admission.step] at h
    split at h
    all_goals
      cases h
      exact none
  | retry i =>
    obtain ⟨-, h⟩ := ite_none_right_eq_some.1 h
    split at h
    all_goals
      cases h
      exact none
  | release =>
    cases h
    unfold Budget.release
    split
    all_goals exact none
  | register | take | leave | cancel | load | write =>
    simp only [Admission.step] at h
    split at h
    · cases h
      exact none
    · cases h

/-- A mount takes part memory either with blocking reservations or from reactors. -/
lemma passed_of_unmixed {acts} (none : s.waitingWriters = 0)
    (unmixed : ∀ act ∈ acts, act ≠ .block) : Machine.Along (step c) (Passed c) s acts := by
  induction acts generalizing s with
  | nil => trivial
  | cons act acts ih =>
    refine ⟨?_, fun t h => ih (waitingWriters_step h none (unmixed act mem_cons_self))
      fun b mem => unmixed b (mem_cons_of_mem _ mem)⟩
    cases act with
    | retry => exact fun _ => none
    | _ => trivial

/-- **Admission to part memory.** In every interleaving, tickets are served in the order in which
they were drawn, as many wait as were drawn and not served, and the memory in use is bounded. If no
registered write is refused a free part because of a ticket, none sleeps for ever beside a free
part. -/
theorem budget_admission (c : Config) {acts : List Move}
    (run : run (step c) initial acts = some s) :
    s.served = range s.servingTicket ∧
    s.tickets = range' s.servingTicket s.waitingWriters ∧
    s.waitingWriters = s.nextTicket - s.servingTicket ∧
    s.pinnedBytes ≤ c.maxPinnedMemory ∧
    (Machine.Along (step c) (Passed c) initial acts → ¬ s.Stranded c) := by
  have inv : Orderly c s := run_inv (fun _ _ _ inv h => inv.step h) initial_orderly run
  refine ⟨inv.served, inv.tickets, ?_, inv.bounded, fun passed => ?_⟩
  · rw [inv.issued, Nat.add_sub_cancel_left]
  · have awake : Orderly c s ∧ s.Awake c :=
      run_inv_along (I := fun s => Orderly c s ∧ s.Awake c)
        (fun _ _ _ inv passed h => ⟨inv.1.step h, inv.2.step inv.1 passed h⟩)
        ⟨initial_orderly, initial_awake⟩ passed run
    rintro ⟨asleep, none, -, available, done⟩
    obtain ⟨i, found⟩ := mem_iff_getElem?.1 asleep
    have one : 1 + _ = s.parked := Sums.sum_map_eraseIdx Stage.sleeps found
    rcases awake.2 available with reading | enough
    · rw [done] at reading
      cases reading
    · rw [none, pending, done] at enough
      change s.parked ≤ 0 at enough
      omega

end

def twoParts : Config := ⟨1, 2, 1, .multi, by decide⟩

def partAwaited : List Move :=
  [.attempt, .attempt, .attempt, .register 0, .retry 0, .release, .load 0, .write 0]

theorem budget_admission_reactor :
    ∃ s, run (step twoParts) initial partAwaited = some s ∧ .parked ∈ s.reactors ∧
      s.available twoParts = true ∧ ¬ s.Stranded twoParts := by
  have ran : run (step twoParts) initial partAwaited = some _ :=
    run_final (by decide)
  have passed : Machine.Along (step twoParts) (Passed twoParts) initial partAwaited :=
    passed_of_unmixed rfl (by decide)
  exact ⟨_, ran, by decide, by decide, (budget_admission twoParts ran).2.2.2.2 passed⟩

def ticketServed : List Move :=
  [.attempt, .attempt, .block, .release, .load 0, .write 0, .release, .load 0, .write 0, .attempt,
    .register 0, .retry 0, .serve 0]

theorem reactor_write_stranded :
    ∃ s, run (step twoParts) initial ticketServed = some s ∧ s.Stranded twoParts := by
  have ran : run (step twoParts) initial ticketServed = some _ :=
    run_final (by decide)
  exact ⟨_, ran, by decide⟩

end Admission

end Ngs3fs.Parts
