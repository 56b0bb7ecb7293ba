import Mathlib.Algebra.Ring.Nat
import Mathlib.Data.List.AList

/-!
# The registry of open handles

`State::open_files`: for each object path the handles that are open on it, whether one of them
writes, and how many readers of each inode are pending, use ordinary I/O, or use a passthrough
registration. `register_open_handle`, `select_passthrough_io`, `unregister_open_handle` and
`finish_open_file_rename` change it under one mutex. The tables are `AList`s. A handle is named by
the number of its registration; `live`, which is not in the code, says that it is registered and
not yet unregistered. -/

namespace Ngs3fs.Open

abbrev Path := String
abbrev Inode := Nat
abbrev HandleId := Nat

/-- `OpenIoMode`. -/
inductive IoMode where
  | pending
  | normal
  | passthrough
  deriving DecidableEq

/-- `InodeIoState`. -/
structure InodeIo where
  pendingReaders : Nat
  normalReaders : Nat
  passthroughReaders : Nat
  backingId : Nat
  deriving DecidableEq

namespace InodeIo

def none : InodeIo := ⟨0, 0, 0, 0⟩

def of (x : InodeIo) : IoMode → Nat
  | .pending => x.pendingReaders
  | .normal => x.normalReaders
  | .passthrough => x.passthroughReaders

def put (x : InodeIo) (n : Nat) : IoMode → InodeIo
  | .pending => { x with pendingReaders := n }
  | .normal => { x with normalReaders := n }
  | .passthrough => { x with passthroughReaders := n }

def total (x : InodeIo) : Nat := x.pendingReaders + x.normalReaders + x.passthroughReaders

end InodeIo

/-- `OpenFileState`. -/
structure OpenFile where
  handles : List HandleId
  inodeIo : AList fun _ : Inode => InodeIo
  readers : Nat
  writer : Bool

def OpenFile.none : OpenFile := ⟨[], ∅, 0, false⟩

/-- `closing` is the top bit of `request_state`. -/
structure Handle where
  inode : Inode
  objectPath : Path
  key : String
  writable : Bool
  ioMode : IoMode
  backingId : Nat
  stale : Bool
  closing : Bool
  live : Bool

/-- The part of `State` that the registry of open files has. -/
structure State where
  openFiles : AList fun _ : Path => OpenFile
  handles : HandleId → Handle
  count : Nat

inductive Error where
  | ebusy (what : String)
  | emfile (what : String)
  | ebadf (what : String)
  | logic (what : String)
  | badAlloc
  deriving DecidableEq

/-- A check before it touches the registry, an allocation in `inode_io` or in `handles`, or the open
count of the inode that another thread has brought to its limit. -/
inductive Fault where
  | refused (error : Error)
  | inodeIo
  | handles
  | openCount
  deriving DecidableEq

/-! ### Calls -/

namespace OpenFile

variable (o : OpenFile)

def conflicts (writable : Bool) : Bool :=
  (writable && (o.writer || o.readers ≠ 0)) || (!writable && o.writer)

def io (i : Inode) : InodeIo := (o.inodeIo.lookup i).getD .none

/-- The last reader takes the record with it. -/
def setIo (i : Inode) (x : InodeIo) : OpenFile :=
  { o with inodeIo := if x.total = 0 then o.inodeIo.erase i else o.inodeIo.insert i x }

def enter (i : Inode) (writable : Bool) : OpenFile :=
  if writable then { o with writer := true }
  else
    { o with
      inodeIo := o.inodeIo.insert i { o.io i with pendingReaders := (o.io i).pendingReaders + 1 }
      readers := o.readers + 1 }

/-- `opened.handles.push_back(&handle)`. -/
def push (h : HandleId) : OpenFile := { o with handles := o.handles ++ [h] }

/-- `std::erase(opened.handles, &handle)`. -/
def drop (h : HandleId) : OpenFile := { o with handles := o.handles.filter (· ≠ h) }

def rollback (i : Inode) (writable : Bool) : OpenFile :=
  if writable then { o with writer := false }
  else
    match o.inodeIo.lookup i with
    | .none => { o with readers := o.readers - 1 }
    | some x => { o with readers := o.readers - 1 }.setIo i
        { x with pendingReaders := x.pendingReaders - 1 }

end OpenFile

namespace State

variable (s : State)

def keep (p : Path) (o : OpenFile) : State :=
  { s with
    openFiles := if !o.writer && o.readers = 0 then s.openFiles.erase p else s.openFiles.insert p
        o }

/-- `find_open_file`. -/
def findOpenFile (p : Path) (h : HandleId) : Option (Path × OpenFile) :=
  match s.openFiles.lookup p with
  | some o => if h ∈ o.handles then some (p, o) else search
  | .none => search
where
  search : Option (Path × OpenFile) :=
    (s.openFiles.entries.find? fun e => h ∈ e.2.handles).map fun e => (e.1, e.2)

def setHandle (h : HandleId) (x : Handle) : State :=
  { s with handles := Function.update s.handles h x }

end State

def sizeMax : Nat := 2 ^ 64 - 1

def Fault.refusal : Fault → Option Error
  | .refused error => some error
  | _ => none

/-- For an inode whose key gives this path. -/
def registerOpenHandle (s : State) (i : Inode) (p : Path) (key : String) (writable : Bool)
    (fault : Option Fault) : State × Except Error HandleId :=
  let h := s.count
  let opened := (s.openFiles.lookup p).getD .none
  let entered := opened.enter i writable
  match fault.bind Fault.refusal with
  | some error => (s, .error error)
  | none =>
    if opened.conflicts writable then
      (s, .error (.ebusy "object already open with conflicting access"))
    else if !writable && opened.readers = sizeMax then (s, .error (.emfile "inode open count"))
    else if fault = some .inodeIo && !writable && (opened.inodeIo.lookup i).isNone then
      -- the entry has been made, and the exception leaves it
      ({ s with openFiles := s.openFiles.insert p opened }, .error .badAlloc)
    else if fault = some .handles then (s.keep p (entered.rollback i writable), .error .badAlloc)
    else
      if fault = some .openCount then
        (s.keep p (((entered.push h).drop h).rollback i writable),
        .error (.emfile "inode open count"))
      else
        ({ openFiles := s.openFiles.insert p (entered.push h)
           handles := Function.update s.handles h ⟨i, p, key, writable, .pending, 0, false,
               false, true⟩
           count := s.count + 1 }, .ok h)

def InodeIo.choose (x : InodeIo) (mode : IoMode) (backing : Nat) : InodeIo :=
  let x := { x with pendingReaders := x.pendingReaders - 1 }
  { x.put (x.of mode + 1) mode with backingId := backing }

def choose (s : State) (p : Path) (o : OpenFile) (h : HandleId) (x : InodeIo) (mode : IoMode)
    (backing : Nat) : State :=
  let io := o.inodeIo.insert (s.handles h).inode (x.choose mode backing)
  { s with
    openFiles := s.openFiles.insert p { o with inodeIo := io }
    handles := Function.update s.handles h { s.handles h with
      ioMode := mode
      backingId := if mode = .passthrough then backing else (s.handles h).backingId } }

/-- `eligible` is what the configuration and the cache entry say, `granted` what
`fuse_passthrough_open` returns. -/
def selectPassthroughIo (s : State) (h : HandleId) (eligible : Bool) (granted : Nat) :
    State × Except Error Bool :=
  let handle := s.handles h
  if handle.writable || handle.ioMode ≠ .pending then (s, .ok false)
  else
    match s.findOpenFile handle.objectPath h with
    | .none => (s, .error (.ebadf "unregistered open handle"))
    | some (p, o) =>
      match o.inodeIo.lookup handle.inode with
      | .none => (s, .error (.logic "open I/O mode registry is inconsistent"))
      | some x =>
        if x.pendingReaders = 0 then
          (s, .error (.logic "open I/O mode registry is inconsistent"))
        else if x.normalReaders ≠ 0 then (choose s p o h x .normal x.backingId, .ok false)
        else if !eligible then
          if x.passthroughReaders ≠ 0 then
            (s, .error (.ebusy "inode passthrough generation cannot use normal I/O"))
          else (choose s p o h x .normal x.backingId, .ok false)
        else if x.backingId = 0 then
          if granted = 0 then (choose s p o h x .normal 0, .ok false)
          else (choose s p o h x .passthrough granted, .ok true)
        else (choose s p o h x .passthrough x.backingId, .ok true)

/-- A registration nobody uses is closed. -/
def InodeIo.leave (x : InodeIo) (mode : IoMode) : InodeIo :=
  let x := x.put (x.of mode - 1) mode
  { x with backingId := if x.passthroughReaders = 0 then 0 else x.backingId }

def OpenFile.leave (o : OpenFile) (i : Inode) (mode : IoMode) : OpenFile :=
  if o.readers = 0 then o
  else
    match o.inodeIo.lookup i with
    | .none => { o with readers := o.readers - 1 }
    | some x => { o with readers := o.readers - 1 }.setIo i (x.leave mode)

/-- `unregister_open_handle`. -/
def unregisterOpenHandle (s : State) (p : Path) (h : HandleId) : State :=
  match s.findOpenFile p h with
  | .none => s
  | some (p, o) =>
    let handle := s.handles h
    let o := o.drop h
    let o := if handle.writable then { o with writer := false } else o.leave
        handle.inode handle.ioMode
    (s.keep p o).setHandle h { handle with live := false }

/-- `reader_snapshot_matches`. -/
def readerSnapshotMatches (s : State) (current snapshot : List HandleId) : Bool :=
  current.all (fun h => h ∈ snapshot || (s.handles h).closing) &&
    snapshot.all fun h => h ∈ current || (s.handles h).closing

/-- Until an allocation fails or two registrations for one inode meet. -/
def mergeIo : Option Nat → List (Σ _ : Inode, InodeIo) → (AList fun _ : Inode => InodeIo) →
    (AList fun _ : Inode => InodeIo) × Except Error Unit
  | _, [], io => (io, .ok ())
  | fault, ⟨i, x⟩ :: rest, io =>
    match io.lookup i with
    | .none =>
      if fault = some 0 then (io, .error .badAlloc)
      else mergeIo (fault.map (· - 1)) rest (io.insert i x)
    | some y =>
      if y.backingId ≠ 0 && x.backingId ≠ 0 && y.backingId ≠ x.backingId then
        (io, .error (.logic "one inode acquired multiple passthrough registrations"))
      else
        mergeIo fault rest (io.insert i
          { pendingReaders := y.pendingReaders + x.pendingReaders
            normalReaders := y.normalReaders + x.normalReaders
            passthroughReaders := y.passthroughReaders + x.passthroughReaders
            backingId := if y.backingId = 0 then x.backingId else y.backingId })

def markStale (s : State) (destination : Path) (preserved : Bool) : State :=
  match s.openFiles.lookup destination with
  | .none => s
  | some o =>
    if preserved then s
    else { s with handles := fun h =>
      if h ∈ o.handles then { s.handles h with stale := true } else s.handles h }

def renameHandles (s : State) (hs : List HandleId) (p : Path) (key : String) : State :=
  { s with handles := fun h =>
    if h ∈ hs then { s.handles h with objectPath := p, key := key } else s.handles h }

/-- `fault` says after how many new records of the merge an allocation fails. -/
def finishOpenFileRename (s : State) (source destination : Path) (key : String) (preserved : Bool)
    (snapshot : List HandleId) (fault : Option Nat) : State × Except Error Unit :=
  let s := markStale s destination preserved
  match s.openFiles.lookup source with
  | .none =>
    if readerSnapshotMatches s [] snapshot then (s, .ok ())
    else (s, .error (.logic "rename source reader registry disappeared"))
  | some src =>
    if !readerSnapshotMatches s src.handles snapshot then
      (s, .error (.logic "rename source reader registry changed"))
    else
      let s := renameHandles s (src.handles.filter (· ∈ snapshot)) destination key
      match s.openFiles.lookup destination with
      | .none =>
        ({ s with openFiles := (s.openFiles.erase source).insert destination src }, .ok ())
      | some dst =>
        let merged := mergeIo fault src.inodeIo.entries dst.inodeIo
        let out := { dst with
          handles := dst.handles ++ src.handles
          readers := dst.readers + src.readers
          inodeIo := merged.1 }
        match merged.2 with
        | .error e => ({ s with openFiles := s.openFiles.insert destination out }, .error e)
        | .ok () =>
          let out := { out with writer := dst.writer || src.writer }
          ({ s with openFiles := (s.openFiles.insert destination out).erase source }, .ok ())

inductive Action where
  | register (i : Inode) (p : Path) (key : String) (writable : Bool) (fault : Option Fault)
  | select (h : HandleId) (eligible : Bool) (granted : Nat)
  | unregister (p : Path) (h : HandleId)
  | rename (source destination : Path) (key : String) (preserved : Bool) (snapshot : List HandleId)
      (fault : Option Nat)
  | closing (h : HandleId)

/-- One call of the registry, or a handle that starts to close. -/
def step (s : State) : Action → State
  | .register i p key writable fault => (registerOpenHandle s i p key writable fault).1
  | .select h eligible granted => (selectPassthroughIo s h eligible granted).1
  | .unregister p h => unregisterOpenHandle s p h
  | .rename source destination key preserved snapshot fault =>
    (finishOpenFileRename s source destination key preserved snapshot fault).1
  | .closing h => s.setHandle h { s.handles h with closing := true }

def start : State := ⟨∅, fun _ => ⟨0, "", "", false, .pending, 0, false, false, false⟩, 0⟩

end Ngs3fs.Open
