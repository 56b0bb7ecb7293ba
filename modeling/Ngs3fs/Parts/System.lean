import Ngs3fs.Parts.Budget

/-!
# All writes of a mount

The threads and requests of `Ngs3fs.Parts.Budget` together: a table of handles, a table of what is
being done with them, and the two counters. An event is one step of one of them, a new request, or
a step of the scheduler, in any order. -/

namespace Ngs3fs.Parts

/-- `admits` and `finishes` count the slots it has got and given back. -/
structure Task where
  handle : Nat
  work : Work
  slot : Bool
  admits : Nat
  finishes : Nat
  deriving DecidableEq

/-- Before the reservation, right after it, and with `current_reservation` set in the handle that is
not published yet. -/
inductive OpenStage where
  | start
  | reserved
  | backed
  | ended
  deriving DecidableEq

structure Sys extends budget : Budget where
  uploads : Scheduler
  handles : List Handle
  opens : List OpenStage
  tasks : List Task
  deriving DecidableEq

def Sys.initial : Sys := ⟨⟨0, 0, 0, 0, false⟩, ⟨[], [], [], 0, none, false, false⟩, [], [], []⟩

def Task.new (handle : Nat) (work : Work) : Task := ⟨handle, work, false, 0, 0⟩

namespace Work

def queued : Work → Bool
  | .part p => p.stage == .queued
  | .flush f => f.stage == .queued
  | _ => false

def wake : Work → Work
  | .part p => .part { p with stage := .ready }
  | .flush f => .flush { f with stage := .ready }
  | work => work

def start : Work → Work
  | .part p => .part { p with stage := .running }
  | .flush f => .flush { f with stage := .preparing }
  | work => work

/-- It keeps the handle from being retired: by `OpenRequestGuard`, or because the kernel does not
close a file before its requests are answered. The jobs of the legacy engine do not. -/
def guards (c : Config) : Work → Bool
  | .part _ => c.engine != .legacy
  | .retire _ => false
  | .done => false
  | _ => true

end Work

namespace Task

def activate (t : Task) : Task := { t with slot := true, admits := t.admits + 1 }

end Task

namespace Sys
variable (c : Config) (s : Sys)

def modify (i : Nat) (f : Task → Task) : Sys := { s with tasks := s.tasks.modify i f }

def admitOwner (i : Nat) : Sys := s.modify i fun t => { t.activate with work := t.work.wake }

/-- With the error path of its callers. -/
def submitOwner (i : Nat) (fault : Fault) : Sys :=
  if s.uploads.stopping then s.modify i fun t => { t with work := t.work.wake }
  else if s.uploads.activeUploads < c.maxUploads then
    { s with uploads := { s.uploads with activeUploads := s.uploads.activeUploads + 1 }
        }.admitOwner i
  else if fault = .queue then s.modify i fun t => { t with work := t.work.wake }
  else { s with uploads := { s.uploads with ownerJobs := s.uploads.ownerJobs ++ [i] } }

/-- `submit_upload`. -/
def submitJob (i owner : Nat) : Sys :=
  { s with uploads := s.uploads.submit ⟨owner, some i⟩ }

def submitTask (handle : Nat) (budgeted : Bool) (fault : Fault) : Sys :=
  let i := s.tasks.length
  let s := { s with tasks := s.tasks ++ [Task.new handle (.part ⟨.queued, budgeted, false, 0⟩)] }
  if c.engine = .legacy then s.submitJob i handle else s.submitOwner c i fault

def submitFlush (i handle : Nat) (fault : Fault) : Sys :=
  if c.engine = .single then
    if s.uploads.stopping || fault == .queue then
      s.modify i fun t => { t with work := t.work.wake }
    else s.submitJob i handle
  else s.submitOwner c i fault

/-- `finish_upload` for a task. -/
def finishUpload (i : Nat) : Sys :=
  let s := s.modify i fun t => { t with slot := false, finishes := t.finishes + 1 }
  match s.uploads.finishUpload with
  | (none, uploads) => { s with uploads }
  | (some next, uploads) => ({ s with uploads }).admitOwner next

def apply (i : Nat) (t : Task) (n : Next) : Sys :=
  let s := { s with
    handles := s.handles.set t.handle n.handle
    tasks := s.tasks.set i { t with work := n.work } }
  match n.effect with
  | .none => s
  | .reserve => { s with budget := s.pin c }
  | .queue => { s with budget := s.budget.queue }
  | .serve => { s with budget := s.serve c }
  | .release => { s with budget := s.budget.release c }
  | .submit budgeted fault => s.submitTask c t.handle budgeted fault
  | .admission fault => s.submitFlush c i t.handle fault
  | .finishUpload => s.finishUpload i

/-- A task takes its next step. -/
def step (i : Nat) (outcome : Outcome) : Option Sys := do
  let t ← s.tasks[i]?
  let h ← s.handles[t.handle]?
  let n ← advance c s.budget s.uploads.stopping t.slot h t.work outcome
  some (s.apply c i t n)

/-- `reserve_part_budget` of a writer that is being opened. -/
def openStep (i : Nat) (ok : Bool) : Option Sys := do
  let stage ← s.opens[i]?
  let put (stage : OpenStage) : Sys := { s with opens := s.opens.set i stage }
  match stage, ok with
  | .start, true =>
    if s.open? c then some { put .reserved with budget := s.pin c }
    else some (put .ended)
  | .start, false => some (put .ended)
  | .reserved, _ => some (put .backed)
  | .backed, true => some { put .ended with handles := s.handles ++ [.fresh false true] }
  | .backed, false => some { put .ended with budget := s.budget.release c }
  | .ended, _ => none

def write (k length : Nat) : Option Sys := do
  let h ← s.handles[k]?
  if h.life ≠ .opened ∨ length = 0 then none
  else if c.engine = .legacy then
    -- the thread has waited for the other write
    if h.writeInProgress ∨ h.writeState ≠ .opened ∨ h.unlinked then none
    else
      let work : Work := if h.cached then .cachedWrite .store length else .write .ensure
          length length
      some { s with
        handles := s.handles.set k { h with writeInProgress := true }
        tasks := s.tasks ++ [Task.new k work] }
  else
    let work : Work :=
      if h.cached then .cachedWrite .start length else .ownerWrite .start length length
    some { s with tasks := s.tasks ++ [Task.new k work] }

def flush (k : Nat) : Option Sys := do
  let h ← s.handles[k]?
  if h.life ≠ .opened then none
  else if c.engine = .legacy then
    if !h.cached && h.unlinked then none
    else some { s with tasks := s.tasks ++ [Task.new k (.sealWrite .start false)] }
  else some { s with tasks := s.tasks ++ [Task.new k (.flush ⟨.start, false, false, false, 0⟩)] }

/-- It fails if there is no memory for it, or if the reactor refuses to reserve its completion. -/
def release (k : Nat) (fails : Bool) : Option Sys := do
  let h ← s.handles[k]?
  if h.life ≠ .opened then none
  else
    let life : Life := if fails then .abandoned else .closing
    some { s with handles := s.handles.set k { h with life } }

/-- `release_write_local_no_network`, once the last reference is gone. -/
def retire (k : Nat) : Option Sys := do
  let h ← s.handles[k]?
  if h.life ≠ .closing ∨ s.tasks.any (fun t => t.handle == k && t.work.guards c) then none
  else if c.engine = .legacy ∧ h.pendingParts ≠ 0 then none
  else
    let state : WriteState := if h.writeState = .sealed then .sealed else .failed
    some { s with
      handles := s.handles.set k { h.takePart with writeState := state, life := .retired }
      tasks := s.tasks ++ [Task.new k (.retire h.currentReservation)] }

def worker : Option Sys := do
  let (job, uploads) ← s.uploads.take c
  let s := { s with uploads }
  match job.task with
  | none => some s
  | some i => some (s.modify i fun t => { t.activate with work := t.work.start })

/-- `shutdown` up to the join. -/
def shutdown : Option Sys :=
  if s.uploads.stopping then none
  else
    some { s with uploads := { s.uploads with
      stopping := true, ownerJobs := [], cancelled := s.uploads.ownerJobs } }

/-- `shutdown` completes one of the owner jobs it has taken out. -/
def cancel : Option Sys :=
  match s.uploads.cancelled with
  | [] => none
  | i :: rest =>
    if s.uploads.jobs = [] then
      some (({ s with uploads := { s.uploads with cancelled := rest } } : Sys).modify i fun t =>
        { t with work := t.work.wake })
    else none

end Sys

inductive Event where
  | open (cached : Bool)
  | openStep (i : Nat) (ok : Bool)
  | write (k length : Nat)
  | flush (k : Nat)
  | release (k : Nat) (fails : Bool)
  | retire (k : Nat)
  | unlink (k : Nat)
  | step (i : Nat) (outcome : Outcome)
  | submit (owner : Nat)
  | worker
  | shutdown
  | cancel
  deriving DecidableEq

/-- One request, turn of a thread, or call of the service. -/
def step (c : Config) (s : Sys) : Event → Option Sys
  | .open false => some { s with opens := s.opens ++ [.start] }
  | .open true => some { s with handles := s.handles ++ [.fresh true false] }
  | .openStep i ok => s.openStep c i ok
  | .write k length => s.write c k length
  | .flush k => s.flush c k
  | .release k fails => s.release k fails
  | .retire k => s.retire c k
  | .unlink k => do
    let h ← s.handles[k]?
    some { s with handles := s.handles.set k { h with unlinked := true } }
  | .step i outcome => s.step c i outcome
  | .submit owner =>
    if s.uploads.stopping then none else some { s with uploads := s.uploads.submit ⟨owner, none⟩ }
  | .worker => s.worker c
  | .shutdown => s.shutdown
  | .cancel => s.cancel

/-! ## Who holds a part -/

namespace Work

def parts : Work → Nat
  | .part p => p.budgeted.toNat
  | _ => 0

def flushes : Work → Nat
  | .flush f => f.reserved.toNat
  | .sealWrite _ reserved => reserved.toNat
  | _ => 0

/-- Between its reservation and the store of `current_reservation`, or between the moment it has
taken the part away and its release. -/
def hand : Work → Nat
  | .write .reserved _ _ | .write (.giveBack _) _ _ => 1
  | .ownerWrite .reserved _ _ | .ownerWrite .giveBack _ _ => 1
  | .flush ⟨.giveBack _, _, _, _, _⟩ => 1
  | .sealWrite (.giveBack _) _ => 1
  | .retire budget => budget.toNat
  | _ => 0

end Work

namespace OpenStage

def holds : OpenStage → Nat
  | .backed => 1
  | _ => 0

def hand : OpenStage → Nat
  | .reserved => 1
  | _ => 0

end OpenStage

namespace Sys
variable (s : Sys)

/-- With the handles that are not published yet. -/
def reservations : Nat :=
  (s.handles.map fun h => h.currentReservation.toNat).sum + (s.opens.map OpenStage.holds).sum

def parts : Nat := (s.tasks.map fun t => t.work.parts).sum

def flushes : Nat := (s.tasks.map fun t => t.work.flushes).sum

def hand : Nat := (s.tasks.map fun t => t.work.hand).sum + (s.opens.map OpenStage.hand).sum

def slots : Nat := (s.tasks.map fun t => t.slot.toNat).sum

def Quiescent : Prop :=
  (∀ t ∈ s.tasks, t.work = .done) ∧ (∀ stage ∈ s.opens, stage = .ended) ∧
    ∀ h ∈ s.handles, h.life = .retired ∨ h.life = .abandoned

instance : Decidable s.Quiescent := inferInstanceAs (Decidable (_ ∧ _ ∧ _))

end Sys

/-- Both counters are exact and within their limits, and every upload has given back its slot once
it is over. -/
structure Conserved (c : Config) (s : Sys) : Prop where
  pinned : s.pinnedBytes =
    c.partSize * (s.reservations + s.parts + s.flushes + s.hand)
  pinned_le : s.pinnedBytes ≤ c.maxPinnedMemory
  no_underflow : s.underflow = false
  active : s.uploads.activeUploads = s.slots
  active_le : s.uploads.activeUploads ≤ c.maxUploads
  no_abort : s.uploads.aborted = false
  admitted_once : ∀ t ∈ s.tasks, t.admits ≤ 1 ∧ t.admits = t.finishes + t.slot.toNat
  finished : ∀ t ∈ s.tasks, t.work = .done → t.finishes = t.admits

end Ngs3fs.Parts
