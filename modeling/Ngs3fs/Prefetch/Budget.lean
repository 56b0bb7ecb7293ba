import Mathlib.Algebra.Order.BigOperators.Group.List
import Mathlib.Algebra.Order.Group.Nat
import Ngs3fs.Lib.Machine
import Ngs3fs.Lib.Sums

/-!
# The prefetch budget

`PrefetchBudget`: bytes are reserved for files, for a demand or on speculation, below a capacity,
below a limit for each file, and with a reserve that speculation leaves free. A reservation is an
object that is split, moved and reset. The objects of a run are a table that only grows: an object
that is destroyed has been reset, and one that has been moved from holds no bytes. The sums of
`size_t` that the code computes stay below the capacity (`Balanced.capacity`). -/

namespace Ngs3fs.Prefetch

open Sums Machine List Function

abbrev FileId := Nat

/-- `PrefetchBudget::State::Usage`. -/
structure Usage where
  speculative : Nat
  demand : Nat
  deriving DecidableEq

namespace Usage

def of (u : Usage) : Bool → Nat
  | true => u.demand
  | false => u.speculative

def put (u : Usage) (n : Nat) : Bool → Usage
  | true => { u with demand := n }
  | false => { u with speculative := n }

def total (u : Usage) : Nat := u.demand + u.speculative

end Usage

/-- With what the constructor checks. -/
structure Config where
  capacity : Nat
  demandReserve : Nat
  pageSize : Nat
  page_ne : pageSize ≠ 0
  reserve_ne : demandReserve ≠ 0
  reserve_le : demandReserve ≤ capacity
  capacity_aligned : capacity % pageSize = 0
  reserve_aligned : demandReserve % pageSize = 0

/-- Without those who wait. -/
structure State where
  files : FileId → Option Usage
  used : Usage
  peak : Nat
  filePeak : Nat
  revision : Nat
  stopped : Bool

/-- `state` says whether `state_` is set. -/
structure Reservation where
  state : Bool
  file : FileId
  bytes : Nat
  demand : Bool
  deriving DecidableEq

/-- `Reservation()`. -/
def Reservation.none : Reservation := ⟨false, 0, 0, false⟩

inductive Failure where
  | invalidArgument (what : String)
  | assertion
  deriving DecidableEq

def State.usage (s : State) (f : FileId) : Usage := (s.files f).getD ⟨0, 0⟩

variable (cfg : Config)

/-- What `try_reserve` refuses. -/
def misaligned (limit preferred minimum : Nat) : Bool :=
  minimum = 0 || minimum > preferred || limit = 0 || limit % cfg.pageSize ≠ 0 ||
    preferred % cfg.pageSize ≠ 0 || minimum % cfg.pageSize ≠ 0

/-- With no regard to the minimum. -/
def available (s : State) (f : FileId) (limit preferred : Nat) (demand : Bool) : Option Nat :=
  let used := s.usage f
  let fileReserve := min limit cfg.demandReserve
  if s.used.total > cfg.capacity || used.total > limit then none
  else
    let bytes := min preferred (min (cfg.capacity - s.used.total) (limit - used.total))
    if demand then some bytes
    else
      let cap := cfg.capacity - cfg.demandReserve
      let fileCap := limit - fileReserve
      if s.used.speculative > cap || used.speculative > fileCap then none
      else some (min bytes (min (cap - s.used.speculative) (fileCap - used.speculative)))

def State.take (s : State) (f : FileId) (bytes : Nat) (demand : Bool) : State :=
  let entry := (s.usage f).put ((s.usage f).of demand + bytes) demand
  let used := s.used.put (s.used.of demand + bytes) demand
  { s with
    files := update s.files f (some entry)
    used := used
    peak := max s.peak used.total
    filePeak := max s.filePeak entry.total }

/-- `try_reserve`. -/
def tryReserve (s : State) (f : FileId) (limit preferred minimum : Nat) (demand : Bool) :
    Except Failure (State × Reservation) :=
  if misaligned cfg limit preferred minimum then
    .error (.invalidArgument "prefetch reservation must be page aligned")
  else if s.stopped then .ok (s, .none)
  else
    match available cfg s f limit preferred demand with
    | Option.none => .ok (s, .none)
    | some bytes =>
      if bytes < minimum then .ok (s, .none)
      else if (s.take f bytes demand).used.total ≤ cfg.capacity then
        .ok (s.take f bytes demand, ⟨true, f, bytes, demand⟩)
      else .error .assertion

/-- What is left, and what is split off. -/
def split (r : Reservation) (bytes : Nat) : Except Failure (Reservation × Reservation) :=
  if !r.state || bytes = 0 || bytes > r.bytes || bytes % cfg.pageSize ≠ 0 then
    .error (.invalidArgument "invalid prefetch reservation split")
  else .ok ({ r with bytes := r.bytes - bytes }, { r with bytes := bytes })

def Reservation.moved (r : Reservation) : Reservation := { r with state := false, bytes := 0 }

/-- `Reservation::reset`, under the lock. -/
def State.give (s : State) (r : Reservation) : Except Failure State :=
  match s.files r.file with
  | Option.none => .error .assertion
  | some entry =>
    if r.bytes ≤ entry.of r.demand ∧ r.bytes ≤ s.used.of r.demand then
      let entry := entry.put (entry.of r.demand - r.bytes) r.demand
      .ok { s with
        files := update s.files r.file
          (if entry.demand = 0 ∧ entry.speculative = 0 then Option.none else some entry)
        used := s.used.put (s.used.of r.demand - r.bytes) r.demand
        revision := s.revision + 1 }
    else .error .assertion

/-- `Reservation::reset`. -/
def reset (s : State) (r : Reservation) : Except Failure (State × Reservation) :=
  if r.bytes = 0 then .ok (s, r.moved)
  else if !r.state then .error .assertion
  else (s.give r).map (·, r.moved)

/-- `stop`. -/
def stop (s : State) : State :=
  if s.stopped then s else { s with stopped := true, revision := s.revision + 1 }

structure Sys extends state : State where
  objects : List Reservation

inductive Action where
  | tryReserve (f : FileId) (limit preferred minimum : Nat) (demand : Bool)
  | split (i bytes : Nat)
  | moveConstruct (i : Nat)
  | moveAssign (i j : Nat)
  | reset (i : Nat)
  | stop
  deriving DecidableEq

def Sys.after (s : Sys) : Except Failure Sys → Option Sys
  | .ok s' => some s'
  | .error (.invalidArgument _) => some s
  | .error .assertion => Option.none

def Sys.on (s : Sys) (i : Nat) (call : Reservation → Option Sys) : Option Sys :=
  match s.objects[i]? with
  | Option.none => some s
  | some r => call r

def Sys.assign (s : Sys) (i j : Nat) (target source : Reservation) : Except Failure Sys :=
  if i = j then .ok s
  else (reset s.state target).map fun out => ⟨out.1, (s.objects.set i source).set j source.moved⟩

/-- The calls of `PrefetchBudget` and `Reservation`. -/
def step (s : Sys) : Action → Option Sys
  | .tryReserve f limit preferred minimum demand =>
    s.after ((tryReserve cfg s.state f limit preferred minimum demand).map fun out =>
      ⟨out.1, s.objects ++ [out.2]⟩)
  | .split i bytes => s.on i fun r => s.after ((split cfg r bytes).map fun parts =>
      ⟨s.state, s.objects.set i parts.1 ++ [parts.2]⟩)
  | .moveConstruct i => s.on i fun r => some ⟨s.state, s.objects.set i r.moved ++ [r]⟩
  | .moveAssign i j => s.on i fun target => s.on j fun source =>
      s.after (s.assign i j target source)
  | .reset i => s.on i fun r => s.after ((reset s.state r).map fun out =>
      ⟨out.1, s.objects.set i out.2⟩)
  | .stop => some ⟨stop s.state, s.objects⟩

def start : Sys := ⟨⟨fun _ => Option.none, ⟨0, 0⟩, 0, 0, 0, false⟩, []⟩

/-! ### What a call does -/

def Reservation.weight (P : FileId → Bool → Bool) (r : Reservation) : Nat :=
  if P r.file r.demand then r.bytes else 0

def Sys.held (s : Sys) (P : FileId → Bool → Bool) : Nat := (s.objects.map (·.weight P)).sum

def Reservation.Attached (r : Reservation) : Prop := r.bytes ≠ 0 → r.state = true

inductive Effect (s : Sys) : Action → Sys → Prop where
  | same {a s'} (files : s'.files = s.files) (used : s'.used = s.used)
      (held : ∀ P, s'.held P = s.held P) : Effect s a s'
  | took {f limit preferred minimum demand bytes s'}
      (enough : available cfg s.state f limit preferred demand = some bytes) (pos : 0 < bytes)
      (state : s'.state = s.take f bytes demand)
      (held : ∀ P, s'.held P = s.held P + if P f demand then bytes else 0) :
    Effect s (.tryReserve f limit preferred minimum demand) s'
  | gave {a s' r} (pos : 0 < r.bytes) (given : s.give r = .ok s'.state)
      (held : ∀ P, s'.held P + r.weight P = s.held P) : Effect s a s'

/-- The counters are the bytes of the outstanding reservations and stay below their bounds. -/
structure Balanced (s : Sys) : Prop where
  used : ∀ d, s.used.of d = s.held fun _ k => k == d
  usage : ∀ f d, (s.usage f).of d = s.held fun g k => g == f && k == d
  capacity : s.used.total ≤ cfg.capacity
  speculative : s.used.speculative ≤ cfg.capacity - cfg.demandReserve
  table : ∀ f, (s.files f).isSome = true ↔ (s.usage f).total ≠ 0
  attached : ∀ r ∈ s.objects, r.Attached

section
variable {cfg} {s s' : Sys} {r : Reservation} {i : Nat} {P : FileId → Bool → Bool}

@[simp] lemma put_of (u : Usage) (n : Nat) (d e : Bool) :
    (u.put n d).of e = if e = d then n else u.of e := by
  cases d <;> cases e <;> rfl

/-- Bytes of one kind are given back. -/
lemma put_less {u : Usage} {n d} (fits : n ≤ u.of d) (e : Bool) :
    (u.put (u.of d - n) d).of e + (if d == e then n else 0) = u.of e := by
  rw [put_of]
  by_cases kind : e = d
  · subst kind
    rw [if_pos rfl, beq_self_eq_true, if_pos rfl]
    exact Nat.sub_add_cancel fits
  · rw [if_neg kind, beq_false_of_ne (Ne.symm kind)]
    rfl

lemma total_eq (u : Usage) (d : Bool) : u.total = u.of d + u.of (!d) := by
  cases d
  · exact Nat.add_comm _ _
  · rfl

lemma take_total (state : State) (f : FileId) (bytes : Nat) (d : Bool) :
    (state.take f bytes d).used.total = state.used.total + bytes := by
  rw [total_eq _ d, total_eq state.used d, State.take]
  simp only [put_of, if_true, Bool.not_eq_self, if_false]
  omega

lemma available_le {state f limit preferred bytes demand}
    (h : available cfg state f limit preferred demand = some bytes) :
    state.used.total + bytes ≤ cfg.capacity ∧ (state.usage f).total + bytes ≤ limit ∧
      (demand = false → state.used.speculative + bytes ≤ cfg.capacity - cfg.demandReserve ∧
        (state.usage f).speculative + bytes ≤ limit - min limit cfg.demandReserve) := by
  rw [available] at h
  simp only [Bool.or_eq_true, decide_eq_true_eq] at h
  split at h
  · cases h
  · rename_i below
    split at h
    · rename_i isDemand
      cases h
      refine ⟨by omega, by omega, fun h => ?_⟩
      rw [isDemand] at h
      cases h
    · split at h
      · cases h
      · cases h
        exact ⟨by omega, by omega, fun _ => ⟨by omega, by omega⟩⟩

lemma held_set (found : s.objects[i]? = some r) (r' : Reservation) (state : State) :
    (Sys.mk state (s.objects.set i r')).held P + r.weight P = s.held P + r'.weight P :=
  sum_map_set (Reservation.weight P) r' found

lemma held_concat (r : Reservation) (state : State) (objects : List Reservation) :
    (Sys.mk state (objects ++ [r])).held P = (Sys.mk state objects).held P + r.weight P :=
  sum_map_concat (Reservation.weight P) objects r

lemma weight_moved : r.moved.weight P = 0 := by
  rw [Reservation.weight]
  exact ite_self 0

lemma moved_attached : r.moved.Attached := fun h => absurd rfl h

lemma weight_le (mem : r ∈ s.objects) : r.weight P ≤ s.held P :=
  single_le_sum (fun _ _ => Nat.zero_le _) _ (mem_map_of_mem mem)

lemma Balanced.reset (balanced : Balanced cfg s) (mem : r ∈ s.objects) :
    ∃ state, Prefetch.reset s.state r = .ok (state, r.moved) ∧
      (r.bytes = 0 ∧ state = s.state ∨ 0 < r.bytes ∧ s.give r = .ok state) := by
  rw [Prefetch.reset]
  by_cases zero : r.bytes = 0
  · exact ⟨s.state, if_pos zero, .inl ⟨zero, rfl⟩⟩
  · have own : r.bytes ≤ (s.usage r.file).of r.demand := by
      rw [balanced.usage]
      have h := weight_le (P := fun g k => g == r.file && k == r.demand) mem
      simpa only [Reservation.weight, beq_self_eq_true, Bool.and_self, if_true] using h
    have all : r.bytes ≤ s.used.of r.demand := by
      rw [balanced.used]
      have h := weight_le (P := fun _ k => k == r.demand) mem
      simpa only [Reservation.weight, beq_self_eq_true, if_true] using h
    rw [if_neg zero, balanced.attached r mem zero]
    cases found : s.files r.file with
    | none =>
      rw [State.usage, found] at own
      cases kind : r.demand <;> simp only [kind, Option.getD_none, Usage.of] at own <;> omega
    | some entry =>
      rw [State.usage, found] at own
      have give : ∃ state, s.give r = .ok state := by
        rw [State.give, found]
        exact ⟨_, if_pos ⟨own, all⟩⟩
      obtain ⟨state, give⟩ := give
      refine ⟨state, ?_, .inr ⟨Nat.pos_of_ne_zero zero, give⟩⟩
      rw [give]
      rfl

lemma Effect.of_reset {a state} (none : r.bytes = 0 ∧ state = s.state ∨
    0 < r.bytes ∧ s.give r = .ok state) (same : s'.state = state)
    (held : ∀ P, s'.held P + r.weight P = s.held P) : Effect cfg s a s' := by
  obtain ⟨zero, rfl⟩ | ⟨pos, given⟩ := none
  · refine .same (congrArg _ same) (congrArg _ same) fun P => ?_
    have h := held P
    rw [Reservation.weight, zero, ite_self] at h
    exact h
  · subst same
    exact .gave pos given held

lemma Balanced.step_effect (balanced : Balanced cfg s) (a : Action) :
    ∃ s', step cfg s a = some s' ∧ Effect cfg s a s' ∧ ∀ r ∈ s'.objects, r.Attached := by
  have still : ∃ s', some s = some s' ∧ Effect cfg s a s' ∧ ∀ r ∈ s'.objects, r.Attached :=
    ⟨s, rfl, .same rfl rfl fun _ => rfl, balanced.attached⟩
  cases a with
  | tryReserve f limit preferred minimum demand =>
    rw [step, tryReserve]
    have refused : ∃ s', s.after (.ok ⟨s.state, s.objects ++ [.none]⟩) = some s' ∧
        Effect cfg s (.tryReserve f limit preferred minimum demand) s' ∧
        ∀ r ∈ s'.objects, r.Attached := by
      refine ⟨_, rfl, .same rfl rfl fun P => ?_, forall_mem_concat balanced.attached fun h =>
          absurd rfl h⟩
      rw [held_concat, Reservation.weight]
      exact congrArg _ (ite_self 0)
    split
    · exact still
    · rename_i aligned
      split
      · exact refused
      · split
        · exact refused
        · rename_i bytes enough
          split
          · exact refused
          · rename_i minimal
            have pos : 0 < bytes := by
              simp only [misaligned, Bool.or_eq_true, decide_eq_true_eq, not_or] at aligned
              omega
            have fits : (s.take f bytes demand).used.total ≤ cfg.capacity := by
              rw [take_total]
              exact (available_le enough).1
            rw [if_pos fits]
            refine ⟨_, rfl, .took enough pos rfl fun P => ?_, ?_⟩
            · rw [held_concat]
              rfl
            · exact forall_mem_concat balanced.attached fun _ => rfl
  | split i bytes =>
    rw [step, Sys.on]
    split
    · exact still
    · rename_i r found
      rw [Prefetch.split]
      split
      · exact still
      · rename_i valid
        simp only [Bool.or_eq_true, decide_eq_true_eq, not_or, Bool.not_eq_true',
          Bool.not_eq_false] at valid
        refine ⟨_, rfl, .same rfl rfl fun P => ?_, ?_⟩
        · have h := held_set (P := P) found { r with bytes := r.bytes - bytes } s.state
          rw [held_concat]
          simp only [Reservation.weight] at h ⊢
          by_cases counts : P r.file r.demand = true
          · rw [if_pos counts, if_pos counts] at h
            rw [if_pos counts]
            omega
          · rw [if_neg counts, if_neg counts] at h
            rw [if_neg counts]
            exact h
        · refine forall_mem_concat (forall_mem_set balanced.attached ?_) ?_
          all_goals exact fun _ => valid.1.1.1
  | moveConstruct i =>
    rw [step, Sys.on]
    split
    · exact still
    · rename_i r found
      refine ⟨_, rfl, .same rfl rfl fun P => ?_, ?_⟩
      · have h := held_set (P := P) found r.moved s.state
        rw [weight_moved] at h
        rw [held_concat]
        exact h
      · refine forall_mem_concat (forall_mem_set balanced.attached moved_attached) ?_
        exact balanced.attached r (mem_of_getElem? found)
  | moveAssign i j =>
    rw [step, Sys.on]
    split
    · exact still
    · rename_i target foundTarget
      rw [Sys.on]
      split
      · exact still
      · rename_i source foundSource
        rw [Sys.assign]
        split
        · exact still
        · rename_i apart
          obtain ⟨state, ran, outcome⟩ := balanced.reset (mem_of_getElem? foundTarget)
          rw [ran]
          refine ⟨_, rfl, .of_reset outcome rfl fun P => ?_, ?_⟩
          · have first := held_set (P := P) foundTarget source state
            have found : (s.objects.set i source)[j]? = some source := by
              rw [getElem?_set_ne apart]
              exact foundSource
            have second := held_set (s := ⟨state, s.objects.set i source⟩) (P := P) found
                source.moved state
            rw [weight_moved] at second
            dsimp only at second ⊢
            omega
          · refine forall_mem_set (forall_mem_set balanced.attached ?_) moved_attached
            exact balanced.attached source (mem_of_getElem? foundSource)
  | reset i =>
    rw [step, Sys.on]
    split
    · exact still
    · rename_i r found
      obtain ⟨state, ran, outcome⟩ := balanced.reset (mem_of_getElem? found)
      rw [ran]
      refine ⟨_, rfl, .of_reset outcome rfl fun P => ?_,
          forall_mem_set balanced.attached moved_attached⟩
      have h := held_set (P := P) found r.moved state
      rw [weight_moved] at h
      exact h
  | stop =>
    refine ⟨_, rfl, .same ?_ ?_ fun _ => rfl, balanced.attached⟩
    all_goals
      simp only [stop]
      split <;> rfl

lemma take_usage (state : State) (f g : FileId) (bytes : Nat) (d e : Bool) :
    ((state.take f bytes d).usage g).of e =
      (state.usage g).of e + if f == g && d == e then bytes else 0 := by
  simp only [State.usage, State.take]
  by_cases here : g = f
  · subst here
    rw [update_self, Option.getD_some, put_of]
    cases d <;> cases e <;> simp
  · rw [update_of_ne here]
    have other : (f == g) = false := beq_false_of_ne (Ne.symm here)
    rw [other]
    rfl

lemma give_usage {state state' : State} (h : state.give r = .ok state') (g : FileId) :
    (∀ e, (state'.usage g).of e + (if r.file == g && r.demand == e then r.bytes else 0) =
      (state.usage g).of e) ∧
    ((state'.files g).isSome = true ↔
      if g = r.file then (state'.usage g).total ≠ 0 else (state.files g).isSome = true) := by
  rw [State.give] at h
  cases found : state.files r.file with
  | none =>
    rw [found] at h
    cases h
  | some entry =>
    rw [found] at h
    dsimp only at h
    split at h
    · rename_i fits
      cases h
      by_cases here : g = r.file
      · subst here
        simp only [State.usage, update_self, found, Option.getD_some, if_true,
          beq_self_eq_true, Bool.true_and]
        split
        · rename_i gone
          refine ⟨fun e => ?_, ?_⟩
          · have zero : (entry.put (entry.of r.demand - r.bytes) r.demand).of e = 0 := by
              cases e with
              | true => exact gone.1
              | false => exact gone.2
            have none : Usage.of ⟨0, 0⟩ e = 0 := by cases e <;> rfl
            rw [Option.getD_none, none, ← put_less fits.1 e, zero]
          · simp [Usage.total]
        · rename_i left
          refine ⟨fun e => ?_, ?_⟩
          · rw [Option.getD_some]
            exact put_less fits.1 e
          · simp only [Usage.total, Option.getD_some, Option.isSome_some, true_iff]
            omega
      · have other : (r.file == g) = false := beq_false_of_ne (Ne.symm here)
        simp only [State.usage, update_of_ne here, other, Bool.false_and, if_neg here]
        exact ⟨fun _ => rfl, trivial⟩
    · cases h

lemma give_used {state state' : State} (h : state.give r = .ok state') (e : Bool) :
    state'.used.of e + (if r.demand == e then r.bytes else 0) = state.used.of e := by
  rw [State.give] at h
  split at h
  · cases h
  · dsimp only at h
    split at h
    · rename_i fits
      cases h
      exact put_less fits.2 e
    · cases h

lemma Balanced.effect {a} (balanced : Balanced cfg s) (effect : Effect cfg s a s')
    (attached : ∀ r ∈ s'.objects, r.Attached) : Balanced cfg s' := by
  cases effect with
  | same files used held =>
    have usage : s'.usage = s.usage := by
      funext f
      rw [State.usage, State.usage, files]
    refine ⟨fun d => ?_, fun f d => ?_, ?_, ?_, fun f => ?_, attached⟩
    · rw [used, held, balanced.used]
    · rw [usage, held, balanced.usage]
    · rw [used]
      exact balanced.capacity
    · rw [used]
      exact balanced.speculative
    · rw [usage, files]
      exact balanced.table f
  | @took f limit preferred minimum demand bytes s' enough pos state held =>
    have bound := available_le enough
    have used (e : Bool) : s'.used.of e =
        s.used.of e + if demand == e then bytes else 0 := by
      rw [state, State.take, put_of]
      cases demand <;> cases e <;> simp
    have usage (g : FileId) (e : Bool) := take_usage s.state f g bytes demand e
    rw [← state] at usage
    refine ⟨fun d => ?_, fun g d => ?_, ?_, ?_, fun g => ?_, attached⟩
    · rw [used, held, balanced.used]
    · rw [usage, held, balanced.usage]
    · rw [state, take_total]
      exact bound.1
    · show s'.used.of false ≤ _
      rw [used]
      have before : s.used.of false ≤ _ := balanced.speculative
      cases demand
      · exact (bound.2.2 rfl).1
      · exact before
    · rw [total_eq _ demand, usage, usage, state]
      show (update s.files f _ g).isSome = true ↔ _
      by_cases here : g = f
      · subst here
        rw [update_self]
        simp only [Option.isSome_some, beq_self_eq_true, Bool.and_self, if_true, true_iff]
        omega
      · have other : (f == g) = false := beq_false_of_ne (Ne.symm here)
        rw [update_of_ne here, other]
        simp only [Bool.false_and, Bool.false_eq_true, if_false, Nat.add_zero]
        rw [← total_eq]
        exact balanced.table g
  | @gave _ s' r pos given held =>
    have used := give_used given
    refine ⟨fun d => ?_, fun g d => ?_, ?_, ?_, fun g => ?_, attached⟩
    · have h := held fun _ k => k == d
      have h' := used d
      rw [← balanced.used, ← h'] at h
      exact (Nat.add_right_cancel h).symm
    · have h := held fun f k => f == g && k == d
      have h' := (give_usage given g).1 d
      rw [← balanced.usage, ← h'] at h
      exact (Nat.add_right_cancel h).symm
    · have h := balanced.capacity
      rw [total_eq _ true] at h ⊢
      have first := used true
      have second := used false
      rw [Bool.not_true] at h ⊢
      omega
    · have h : s.used.of false ≤ _ := balanced.speculative
      have first := used false
      show s'.used.of false ≤ _
      omega
    · rw [(give_usage given g).2]
      split
      · exact Iff.rfl
      · rename_i elsewhere
        have other : (r.file == g) = false := beq_false_of_ne (Ne.symm elsewhere)
        have same (e : Bool) : (s'.usage g).of e = (s.usage g).of e := by
          have h := (give_usage given g).1 e
          rw [other] at h
          exact h
        rw [total_eq _ true, same, same, ← total_eq]
        exact balanced.table g

end

/-! ### A limit for each file -/

def Action.Limited (limit : FileId → Nat) : Action → Prop
  | .tryReserve f l _ _ _ => l = limit f
  | _ => True

/-- Speculation stays below what the reserve leaves of the limit. -/
def Within (limit : FileId → Nat) (s : Sys) : Prop :=
  ∀ f, (s.usage f).total ≤ limit f ∧
    (s.usage f).speculative ≤ limit f - min (limit f) cfg.demandReserve

def DemandServed (s : Sys) : Prop :=
  ∀ f limit preferred minimum, misaligned cfg limit preferred minimum = false →
    minimum ≤ cfg.demandReserve →
    ((∃ out, tryReserve cfg s.state f limit preferred minimum true = .ok out ∧
      minimum ≤ out.2.bytes) ↔ (s.usage f).total + minimum ≤ limit)

def Sys.NoDemand (s : Sys) : Prop := ∀ r ∈ s.objects, r.demand = true → r.bytes = 0

section
variable {cfg} {s s' : Sys} {limit : FileId → Nat} {a : Action}

lemma Within.effect (within : Within cfg limit s) (limited : a.Limited limit)
    (effect : Effect cfg s a s') : Within cfg limit s' := by
  intro g
  cases effect with
  | same files =>
    have h := within g
    rw [State.usage, files]
    exact h
  | @took f _ preferred minimum demand bytes s' enough pos state =>
    obtain rfl : _ = limit f := limited
    have bound := available_le enough
    have usage (e : Bool) := take_usage s.state f g bytes demand e
    rw [← state] at usage
    have demands : (s'.usage g).demand = (s.usage g).demand + _ := usage true
    have speculates : (s'.usage g).speculative = (s.usage g).speculative + _ :=
      usage false
    have h := within g
    simp only [Usage.total] at h bound ⊢
    by_cases here : f = g
    · subst here
      cases demand
      · have spec := bound.2.2 rfl
        simp only [beq_self_eq_true, Bool.and_self, if_true, Bool.true_and, beq_iff_eq,
          Bool.false_eq_true, if_false] at demands speculates
        omega
      · simp only [beq_self_eq_true, Bool.and_self, if_true, Bool.true_and, beq_iff_eq,
          Bool.true_eq_false, if_false] at demands speculates
        omega
    · have other : (f == g) = false := beq_false_of_ne here
      rw [other] at demands speculates
      rw [demands, speculates]
      exact h
  | @gave _ s' r pos given held =>
    have fewer (e : Bool) : (s'.usage g).of e ≤ (s.usage g).of e :=
      Nat.le.intro ((give_usage given g).1 e)
    have h := within g
    have demand : (s'.usage g).demand ≤ (s.usage g).demand := fewer true
    have speculative : (s'.usage g).speculative ≤ (s.usage g).speculative := fewer false
    simp only [Usage.total] at h ⊢
    omega

lemma NoDemand.demand_eq (balanced : Balanced cfg s) (none : s.NoDemand) :
    s.used.demand = 0 ∧ ∀ f, (s.usage f).demand = 0 := by
  have zero (P : FileId → Bool → Bool) (demands : ∀ f k, P f k = true → k = true) :
      s.held P = 0 := by
    apply sum_eq_zero
    intro n mem
    obtain ⟨r, member, rfl⟩ := mem_map.1 mem
    rw [Reservation.weight]
    split
    · rename_i counts
      exact none r member (demands _ _ counts)
    · rfl
  refine ⟨?_, fun f => ?_⟩
  · refine (balanced.used true).trans (zero _ fun _ k h => ?_)
    exact beq_iff_eq.1 h
  · refine (balanced.usage f true).trans (zero _ fun _ k h => ?_)
    exact beq_iff_eq.1 (Bool.and_eq_true_iff.1 h).2

lemma Balanced.demandServed (balanced : Balanced cfg s) (none : s.NoDemand)
    (running : s.stopped = false) : DemandServed cfg s := by
  intro f limit preferred minimum aligned covered
  have demand := (NoDemand.demand_eq balanced none).1
  have speculative := balanced.speculative
  have reserve := cfg.reserve_le
  have free : s.used.total + minimum ≤ cfg.capacity := by
    rw [Usage.total]
    omega
  rw [tryReserve, aligned, running]
  have asked : minimum ≤ preferred ∧ 0 < minimum := by
    simp only [misaligned, Bool.or_eq_false_iff, decide_eq_false_iff_not] at aligned
    omega
  constructor
  · rintro ⟨out, ran, enough⟩
    cases found : available cfg s.state f limit preferred true with
    | none =>
      rw [found] at ran
      cases ran
      exact absurd enough (Nat.not_le.2 asked.2)
    | some bytes =>
      rw [found] at ran
      have bound := (available_le found).2.1
      simp only [Bool.false_eq_true, if_false] at ran
      split at ran
      · cases ran
        exact absurd enough (Nat.not_le.2 asked.2)
      · omega
  · intro room
    have found : available cfg s.state f limit preferred true = some (min preferred
        (min (cfg.capacity - s.used.total) (limit - (s.usage f).total))) := by
      rw [available]
      simp only [Bool.or_eq_true, decide_eq_true_eq]
      rw [if_neg (by omega)]
      rfl
    have bound := (available_le found).1
    rw [← take_total s.state f _ true] at bound
    rw [found]
    simp only [Bool.false_eq_true, if_false]
    rw [if_neg (by omega), if_pos bound]
    refine ⟨_, rfl, ?_⟩
    show minimum ≤ min preferred _
    omega

end

lemma balanced_start : Balanced cfg start := by
  refine ⟨fun d => ?_, fun f d => ?_, Nat.zero_le _, Nat.zero_le _, fun f => ?_, fun r mem => ?_⟩
  · cases d <;> rfl
  · cases d <;> rfl
  · exact ⟨fun h => (Bool.false_ne_true h).elim, fun h => absurd rfl h⟩
  · cases mem

/-- Every sequence of calls runs without a failed assertion and ends in balance: the counters are
the bytes of the outstanding reservations, below the capacity and, for speculation, below what the
reserve leaves of it, and the table has the files with bytes. If every call asks with the limit of
its file, no file exceeds its limit. While the budget is not stopped and no demand reservation is
outstanding, a demand that the reserve covers succeeds if the file has room below the limit it asks
with, and with one limit for each file it has. -/
theorem budget_accounts (as : List Action) : ∃ s, run (step cfg) start as = some s ∧
    Balanced cfg s ∧ (s.stopped = false → s.NoDemand → DemandServed cfg s) ∧
    ∀ limit, (∀ a ∈ as, a.Limited limit) → Within cfg limit s ∧
      (s.NoDemand → ∀ f minimum, minimum ≤ min (limit f) cfg.demandReserve →
        (s.usage f).total + minimum ≤ limit f) := by
  have runs : ∀ (as : List Action) (s : Sys), Balanced cfg s →
      ∃ s', run (step cfg) s as = some s' ∧ Balanced cfg s' ∧
        ∀ limit, (∀ a ∈ as, a.Limited limit) → Within cfg limit s → Within cfg limit s' := by
    intro as
    induction as with
    | nil => exact fun s balanced => ⟨s, rfl, balanced, fun _ _ within => within⟩
    | cons a as ih =>
      intro s balanced
      obtain ⟨t, stepped, effect, attached⟩ := balanced.step_effect a
      obtain ⟨s', ran, balanced', within⟩ := ih t (balanced.effect effect attached)
      refine ⟨s', ?_, balanced', fun limit limited h => ?_⟩
      · rw [run, stepped]
        exact ran
      · apply within limit fun b mem => limited b (mem_cons_of_mem _ mem)
        exact h.effect (limited a mem_cons_self) effect
  obtain ⟨s, ran, balanced, within⟩ := runs as start (balanced_start cfg)
  refine ⟨s, ran, balanced, fun running none => balanced.demandServed none running,
      fun limit limited => ?_⟩
  have below := within limit limited fun f => ⟨Nat.zero_le _, Nat.zero_le _⟩
  refine ⟨below, fun none f minimum covered => ?_⟩
  have demand := (NoDemand.demand_eq balanced none).2 f
  have speculative := (below f).2
  rw [Usage.total, demand]
  omega

def eightPages : Config where
  capacity := 8
  demandReserve := 2
  pageSize := 1
  page_ne := Nat.one_ne_zero
  reserve_ne := by decide
  reserve_le := by decide
  capacity_aligned := by decide
  reserve_aligned := by decide

theorem budget_accounts_speculation :
    ∃ s, run (step eightPages) start [.tryReserve 0 6 4 4 false, .split 0 1,
        .reset 1] = some s ∧
      Within eightPages (fun _ => 6) s ∧ (s.usage 0).total + 2 ≤ 6 ∧
          s.used.total = 3 := by
  obtain ⟨s, ran, -, -, limits⟩ :=
    budget_accounts eightPages [.tryReserve 0 6 4 4 false, .split 0 1, .reset 1]
  obtain ⟨within, room⟩ := limits (fun _ => 6) (by
    intro a mem
    simp only [mem_cons, not_mem_nil, or_false] at mem
    obtain rfl | rfl | rfl := mem
    · rfl
    · trivial
    · trivial)
  have final := congrArg (·.map fun s => (s.objects, s.used)) ran
  obtain ⟨objects, used⟩ := Prod.mk.inj (Option.some.inj final)
  refine ⟨s, ran, within, room (fun r mem demand => ?_) 0 2 (by decide), ?_⟩
  · dsimp only at objects
    rw [← objects] at mem
    revert r
    decide
  · dsimp only at used
    rw [← used]
    rfl

theorem demand_refused_below_usage :
    (run (step eightPages) start [.tryReserve 0 6 4 4 false]).map (fun s =>
      (s.stopped, s.objects.all (!·.demand), misaligned eightPages 2 1 1,
        decide (1 ≤ min 2 eightPages.demandReserve),
        (tryReserve eightPages s.state 0 2 1 1 true).toOption.map (·.2))) =
      some (false, true, false, true, some .none) := by
  decide

end Ngs3fs.Prefetch
