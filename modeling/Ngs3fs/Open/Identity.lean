import Ngs3fs.Lib.Threads

/-!
# The identity lock of a handle

`ReactorSharedMutex` is taken by threads that block and by tasks of a reactor, which register, try
once more and then read a token from the event. One atomic operation is a step; what is computed
from a loaded value belongs to the load. -/

namespace Ngs3fs.Open.Identity
open Threads

def kWriter : Nat := 2 ^ 31
def kReaders : Nat := kWriter - 1

/-- The members of `ReactorSharedMutex`. -/
structure Memory where
  state : Nat
  wakeGeneration : Nat
  waitingWriters : Nat
  reactorWaiters : Nat
  /-- what the event holds -/
  tokens : Nat

inductive Held
  | nothing
  | shared
  | exclusive

def Held.isShared : Held → Bool
  | shared => true
  | _ => false

def Held.isExclusive : Held → Bool
  | exclusive => true
  | _ => false

/-- Who calls `try_lock_shared`: somebody who tries once, `lock_shared` with the generation it has
loaded, or a registered task. -/
inductive Caller
  | once
  | blocking (generation : Nat)
  | retry (writer : Bool)

/-- `try_lock_shared` may count one more reader. -/
def Admits (state : Nat) : Prop := state / kWriter % 2 ≠ 1 ∧ state % kWriter ≠ kReaders

instance (state : Nat) : Decidable (Admits state) := inferInstanceAs (Decidable (_ ∧ _))

/-- The operation a thread is about to do, and the lock it holds. -/
inductive Phase
  | idle (held : Held)
  | lockLoad
  | lockExchange (generation : Nat)
  | lockWait (generation : Nat)
  | lockSucceeded
  | lockThrows
  | sharedLoad
  | sharedWait (generation : Nat)
  | writersLoad (caller : Caller)
  | stateLoad (caller : Caller)
  | exchange (caller : Caller) (state : Nat) (admits : Admits state)
  | notifyAdd (held : Held)
  | notifyLoad (held : Held)
  | notifyWrite (held : Held) (waiters : Nat)
  | beginWriter
  | registered (writer : Bool)
  | parking (writer : Bool)
  | parked (writer : Bool)
  | endWait (held : Held) (writer : Bool)
  | endWriter (held : Held)

inductive Action
  | lock
  | tryLock
  | lockShared
  | tryLockShared
  | unlock
  | beginWait (writer : Bool)
  | go
  | fails

namespace Caller

def refused : Caller → Phase
  | once => .idle .nothing
  | blocking generation => .sharedWait generation
  | retry writer => .parking writer

def admitted : Caller → Phase
  | retry writer => .endWait .shared writer
  | _ => .idle .shared

/-- The head of the loop of `try_lock_shared`. -/
def looks (c : Caller) (state : Nat) : Phase :=
  if admits : Admits state then .exchange c state admits else c.refused

end Caller

/-- `try_lock` -/
def Memory.tryLock (m : Memory) (locked busy : Phase) : Memory × Phase :=
  if m.state = 0 then ({ m with state := kWriter }, locked) else (m, busy)

/-- The methods of `ReactorSharedMutex`, one access to its members a step. -/
def Phase.next (m : Memory) : Phase → Action → Option (Memory × Phase)
  | .idle .nothing, .lock =>
    some ({ m with waitingWriters := m.waitingWriters + 1 }, .lockLoad)
  | .idle .nothing, .tryLock => some (m.tryLock (.idle .exclusive) (.idle .nothing))
  | .idle .nothing, .lockShared => some (m, .sharedLoad)
  | .idle .nothing, .tryLockShared => some (m, .writersLoad .once)
  | .idle .nothing, .beginWait true =>
    some ({ m with waitingWriters := m.waitingWriters + 1 }, .beginWriter)
  | .idle .nothing, .beginWait false =>
    some ({ m with reactorWaiters := m.reactorWaiters + 1 }, .registered false)
  | .idle .exclusive, .unlock => some ({ m with state := 0 }, .notifyAdd .nothing)
  | .idle .shared, .unlock =>
    -- `unlock_shared` aborts if no reader is counted
    if m.state % kWriter = 0 ∨ m.state / kWriter % 2 = 1 then none
    else some ({ m with state := m.state - 1 },
      if m.state = 1 then .notifyAdd .nothing else .idle .nothing)
  | .lockLoad, .go => some (m, .lockExchange m.wakeGeneration)
  | .lockExchange generation, .go => some (m.tryLock .lockSucceeded (.lockWait generation))
  | .lockWait generation, .go => if m.wakeGeneration = generation then none else some (m, .lockLoad)
  | .lockWait _, .fails => some (m, .lockThrows)
  | .lockSucceeded, .go =>
    some ({ m with waitingWriters := m.waitingWriters - 1 }, .idle .exclusive)
  | .lockThrows, .go =>
    some ({ m with waitingWriters := m.waitingWriters - 1 }, .notifyAdd .nothing)
  | .sharedLoad, .go => some (m, .writersLoad (.blocking m.wakeGeneration))
  | .sharedWait generation, .go =>
    if m.wakeGeneration = generation then none else some (m, .sharedLoad)
  | .sharedWait _, .fails => some (m, .idle .nothing)
  | .writersLoad c, .go => some (m, if m.waitingWriters ≠ 0 then c.refused else .stateLoad c)
  | .stateLoad c, .go => some (m, c.looks m.state)
  | .exchange c state _, .go =>
    if m.state = state then some ({ m with state := state + 1 }, c.admitted)
    else some (m, c.looks m.state)
  -- the weak exchange may fail without a cause
  | .exchange c _ _, .fails => some (m, c.looks m.state)
  | .notifyAdd held, .go =>
    some ({ m with wakeGeneration := (m.wakeGeneration + 1) % 2 ^ 32 }, .notifyLoad held)
  | .notifyLoad held, .go =>
    some (m, if m.reactorWaiters = 0 then .idle held else .notifyWrite held m.reactorWaiters)
  | .notifyWrite held waiters, .go => some ({ m with tokens := m.tokens + waiters }, .idle held)
  | .beginWriter, .go =>
    some ({ m with reactorWaiters := m.reactorWaiters + 1 }, .registered true)
  | .registered writer, .tryLock => some (m.tryLock (.endWait .exclusive writer) (.parking writer))
  | .registered writer, .tryLockShared => some (m, .writersLoad (.retry writer))
  | .parking writer, .go => some (m, .parked writer)
  | .parked writer, .go =>
    if m.tokens = 0 then none
      else some ({ m with tokens := m.tokens - 1 }, .endWait .nothing writer)
  -- the read is not submitted, or it fails
  | .parking writer, .fails | .parked writer, .fails => some (m, .endWait .nothing writer)
  | .endWait held true, .go =>
    some ({ m with reactorWaiters := m.reactorWaiters - 1 }, .endWriter held)
  | .endWait held false, .go =>
    some ({ m with reactorWaiters := m.reactorWaiters - 1 }, .idle held)
  | .endWriter held, .go =>
    some ({ m with waitingWriters := m.waitingWriters - 1 }, .notifyAdd held)
  | _, _ => none

namespace Caller

def wants : Caller → Bool
  | retry writer => writer
  | _ => false

def awake : Caller → Bool
  | retry _ => true
  | _ => false

end Caller

namespace Phase

def held : Phase → Held
  | idle held | notifyAdd held | notifyLoad held | notifyWrite held _ | endWait held _
  | endWriter held => held
  | lockSucceeded => .exclusive
  | _ => .nothing

/-- It is counted in `waiting_writers_`. -/
def wants : Phase → Bool
  | lockLoad | lockExchange _ | lockWait _ | lockSucceeded | lockThrows | beginWriter
  | endWriter _ => true
  | registered writer | parking writer | parked writer | endWait _ writer => writer
  | writersLoad c | stateLoad c | exchange c _ _ => c.wants
  | _ => false

/-- It has seen the lock taken and has no token yet. -/
def hungry : Phase → Bool
  | parking _ | parked _ => true
  | _ => false

/-- It is counted in `reactor_waiters_` and has not seen the lock taken, or has a token. -/
def awake : Phase → Bool
  | registered _ | endWait _ _ => true
  | writersLoad c | stateLoad c | exchange c _ _ => c.awake
  | _ => false

/-- A notification that has not counted the waiters. -/
def pending : Phase → Bool
  | notifyAdd _ | notifyLoad _ => true
  | _ => false

/-- The tokens a notification is about to write. -/
def loaded : Phase → Nat
  | notifyWrite _ waiters => waiters
  | _ => 0

/-- A `notify` is still to run. -/
def notifying : Phase → Bool
  | notifyAdd _ | notifyLoad _ | notifyWrite _ _ => true
  | _ => false

end Phase

inductive Kind
  | exclusive
  | shared
  | wants
  | hungry
  | awake
  | pending
  | loaded

def weight (p : Phase) : Kind → Nat
  | .exclusive => p.held.isExclusive.toNat
  | .shared => p.held.isShared.toNat
  | .wants => p.wants.toNat
  | .hungry => p.hungry.toNat
  | .awake => p.awake.toNat
  | .pending => p.pending.toNat
  | .loaded => p.loaded

/-- Once the lock is free and no writer waits, a notification is still to count the waiters, or
there are tokens for those who wait. -/
structure Good (m : Memory) (count : Kind → Nat) : Prop where
  state : m.state = kWriter * count .exclusive + count .shared
  alone : count .exclusive = 0 ∨ count .exclusive = 1 ∧ count .shared = 0
  fits : count .shared ≤ kReaders
  writers : m.waitingWriters = count .wants
  waiters : m.reactorWaiters = count .hungry + count .awake
  tokens : m.state = 0 → m.waitingWriters = 0 → count .pending = 0 →
    count .hungry ≤ m.tokens + count .loaded

variable {m m' : Memory} {p q : Phase} {a : Action} {rest : Kind → Nat}

lemma Good.refuse {c} (good : Good m fun k => weight (.writersLoad c) k + rest k)
    (busy : m.state = 0 → m.waitingWriters ≠ 0) : Good m fun k => weight c.refused k + rest k := by
  obtain ⟨state, alone, fits, writers, waiters, tokens⟩ := good
  cases c with
  | once | blocking => exact ⟨state, alone, fits, writers, waiters, tokens⟩
  | retry writer =>
    refine ⟨state, alone, fits, writers, ?_, fun free none => absurd none (busy free)⟩
    simp only [weight, Phase.hungry, Phase.awake, Caller.awake, Caller.refused] at waiters ⊢
    omega

lemma Good.looks {c} (good : Good m fun k => weight (.writersLoad c) k + rest k) :
    Good m fun k => weight (c.looks m.state) k + rest k := by
  unfold Caller.looks
  split
  · exact { good with }
  · rename_i taken
    refine good.refuse fun free => ?_
    rw [free] at taken
    exact absurd (by decide) taken

lemma Good.admit {c} (good : Good m fun k => weight (.writersLoad c) k + rest k)
    (admits : Admits m.state) :
    Good { m with state := m.state + 1 } fun k => weight c.admitted k + rest k := by
  obtain ⟨state, alone, fits, writers, waiters, tokens⟩ := good
  have exclusive : weight (.writersLoad c) .exclusive = 0 ∧ weight c.admitted .exclusive = 0 := by
    cases c <;> exact ⟨rfl, rfl⟩
  have shared : weight (.writersLoad c) .shared = 0 ∧ weight c.admitted .shared = 1 := by
    cases c <;> exact ⟨rfl, rfl⟩
  simp only [Admits, kWriter, kReaders] at *
  refine ⟨?_, ?_, ?_, ?_, ?_, nofun⟩
  · simp only [kWriter]
    omega
  · omega
  · simp only [kReaders, kWriter]
    omega
  · cases c <;> exact writers
  · cases c <;> exact waiters

/-- The arms of `try_lock_shared` are above; the others only move numbers. -/
lemma Good.next (good : Good m fun k => weight p k + rest k) (goes : p.next m a = some (m', q)) :
    Good m' fun k => weight q k + rest k := by
  unfold Phase.next Memory.tryLock at goes
  split at goes
  case h_18 =>
    split at goes
    · cases goes
      exact good.refuse fun _ => ‹_›
    · cases goes
      exact { good with }
  case h_19 | h_21 =>
    cases goes
    exact Good.looks { good with }
  case h_20 c state admits =>
    have good : Good m fun k => weight (.writersLoad c) k + rest k :=
      { good with }
    split at goes
    · rename_i same
      subst same
      cases goes
      exact good.admit admits
    · cases goes
      exact good.looks
  all_goals
    obtain ⟨state, alone, fits, writers, waiters, tokens⟩ := good
    simp only [weight, Phase.held, Phase.wants, Phase.hungry, Phase.awake, Phase.pending,
      Phase.loaded, Held.isExclusive, Held.isShared, kWriter, kReaders, Bool.toNat_true,
      Bool.toNat_false] at state alone fits writers waiters tokens
  all_goals try split at goes
  all_goals try split at goes
  all_goals
    cases goes
  all_goals
    refine ⟨?_, ?_, ?_, ?_, ?_, ?_⟩
    all_goals
      simp only [weight, Phase.held, Phase.wants, Phase.hungry, Phase.awake, Phase.pending,
        Phase.loaded, Held.isExclusive, Held.isShared, Caller.wants, Caller.awake,
          kWriter, kReaders,
        Bool.toNat_true, Bool.toNat_false]
      omega

theorem identity_lock_safe {n : Nat} {events : List (Nat × Action)}
    {s : Threads.System Memory Phase}
    (run : Machine.run (step Phase.next) ⟨⟨0, 0, 0, 0, 0⟩, List.replicate n (.idle .nothing)⟩
      events = some s) :
    (s.threads.countP (·.held.isExclusive) = 0 ∨
      s.threads.countP (·.held.isExclusive) = 1 ∧ s.threads.countP (·.held.isShared) = 0) ∧
    s.memory.waitingWriters = s.threads.countP Phase.wants ∧
    ¬ (s.memory.state = 0 ∧ s.memory.waitingWriters = 0 ∧ (∃ writer, .parked writer ∈ s.threads) ∧
      s.memory.tokens = 0 ∧ ∀ p ∈ s.threads, p.notifying = false) := by
  have none : total weight (List.replicate n (.idle .nothing)) = fun _ => 0 := by
    funext k
    refine total_eq_zero fun p mem => ?_
    rw [List.eq_of_mem_replicate mem]
    cases k <;> rfl
  have good : Good s.memory (total weight s.threads) := by
    refine run_total (fun rest good goes => good.next goes) ?_ run
    rw [none]
    exact ⟨rfl, .inl rfl, Nat.zero_le _, rfl, rfl, fun _ _ _ => Nat.zero_le _⟩
  have exclusive : total weight s.threads .exclusive = _ := total_eq_countP fun _ => rfl
  have shared : total weight s.threads .shared = _ := total_eq_countP fun _ => rfl
  refine ⟨exclusive ▸ shared ▸ good.alone, ?_, ?_⟩
  · rw [good.writers]
    exact total_eq_countP fun _ => rfl
  · rintro ⟨free, writers, ⟨writer, parked⟩, empty, quiet⟩
    have pending : total weight s.threads .pending = 0 := by
      refine total_eq_zero fun p mem => ?_
      cases p with
      | notifyAdd | notifyLoad => cases quiet _ mem
      | _ => rfl
    have loaded : total weight s.threads .loaded = 0 := by
      refine total_eq_zero fun p mem => ?_
      cases p with
      | notifyWrite => cases quiet _ mem
      | _ => rfl
    have hungry : weight (.parked writer) .hungry ≤ _ := le_total parked
    have tokens := good.tokens free writers pending
    rw [show weight (.parked writer) .hungry = 1 from rfl] at hungry
    omega

/-- A task parks while a writer has the lock; the unlock leaves it a token. -/
theorem identity_lock_safe_parked :
    ∃ s : Threads.System Memory Phase, s.memory.state = 0 ∧ .parked false ∈ s.threads ∧
      s.memory.tokens = 1 ∧ (∀ p ∈ s.threads, p.notifying = false) ∧
      ¬ (s.memory.state = 0 ∧ s.memory.waitingWriters = 0 ∧ (∃ writer, .parked writer ∈ s.threads) ∧
        s.memory.tokens = 0 ∧ ∀ p ∈ s.threads, p.notifying = false) := by
  obtain ⟨s, run, rfl⟩ : ∃ s, Machine.run (step Phase.next)
      ⟨⟨0, 0, 0, 0, 0⟩, List.replicate 2 (.idle .nothing)⟩
      [(0, .tryLock), (1, .beginWait false), (1, .tryLock), (1, .go), (0, .unlock),
        (0, .go), (0, .go),
        (0, .go)] = some s ∧ s = ⟨⟨0, 1, 0, 1, 1⟩, [.idle .nothing, .parked false]⟩ := ⟨_, rfl, rfl⟩
  refine ⟨_, rfl, .tail _ (.head _), rfl, ?_, (identity_lock_safe run).2.2⟩
  intro p mem
  obtain rfl | mem := List.mem_cons.1 mem
  · rfl
  · rw [List.mem_singleton.1 mem]
    rfl

end Ngs3fs.Open.Identity
