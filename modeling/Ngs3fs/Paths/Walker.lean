import Ngs3fs.Paths.Leaf

/-!
# The asynchronous path walker

`CachePathWalker`: the walk of `cache_leaf` and `cache_find_leaf` as a machine that submits one
file system request at a time. `drive` runs it against a tree. `walk` is what it does, as a
recursion over the components. -/

namespace Ngs3fs.Paths

open FileTree List Function

variable {F : Type}

/-- `CachePathWalker::Phase`. -/
inductive Phase where
  | statComponent
  | mkdirComponent
  | openComponent
  | promoteRenameOut
  | promoteMkdir
  | promoteOpen
  | promoteRenameIn
  | closeParent
  | statValue
  | errorCloseNext
  | errorCloseCurrent
  deriving DecidableEq

/-- An open directory is its path, and `next_fd_` is `none` for `-1`. -/
structure Walker where
  components : List Bytes
  index : Nat
  create : Bool
  temporary : Bytes
  current : List Bytes
  next : Option (List Bytes)
  owned : Bool
  leafDirectory : Bool
  valueAfterClose : Bool
  error : Option Error
  phase : Phase

inductive Request where
  | statx (dir : List Bytes) (name : Bytes)
  | mkdirat (dir : List Bytes) (name : Bytes)
  | openat (dir : List Bytes) (name : Bytes)
  | renameat (dir : List Bytes) (name : Bytes) (dir' : List Bytes) (name' : Bytes)
  | close (dir : List Bytes)

inductive Reply (F : Type) where
  | done
  | node (n : Node F)
  | opened (dir : List Bytes)

inductive Completion where
  | finished (found : Bool) (parent : List Bytes) (owned : Bool) (leaf : Bytes)
  | missing
  | failed (error : Error)
  deriving DecidableEq

def perform (fs : Tree F) : Request → Tree F × Except Errno (Reply F)
  | .statx dir name =>
    match fs (dir ++ [name]) with
    | none => (fs, .error .enoent)
    | some n => (fs, .ok (.node n))
  | .mkdirat dir name =>
    match mkdirat fs dir name with
    | .error e => (fs, .error e)
    | .ok fs => (fs, .ok .done)
  | .openat dir name =>
    match openDirectory fs dir name with
    | .error e => (fs, .error e)
    | .ok p => (fs, .ok (.opened p))
  | .renameat dir name dir' name' =>
    match renameat fs dir name dir' name' with
    | .error e => (fs, .error e)
    | .ok fs => (fs, .ok .done)
  | .close _ => (fs, .ok .done)

namespace Walker

variable (w : Walker)

def component : Bytes := w.components.getD w.index []

/-- `finish_error_now`. -/
def finishErrorNow : Walker × (Request ⊕ Completion) :=
  match w.error with
  | none => (w, .inr .missing)
  | some e => (w, .inr (.failed e))

/-- `close_current_or_finish_error`. -/
def closeCurrentOrFinishError : Walker × (Request ⊕ Completion) :=
  if w.owned then ({ w with phase := .errorCloseCurrent }, .inl (.close w.current))
  else w.finishErrorNow

/-- `begin_cleanup`. -/
def beginCleanup : Walker × (Request ⊕ Completion) :=
  match w.next with
  | some fd => ({ w with phase := .errorCloseNext }, .inl (.close fd))
  | none => w.closeCurrentOrFinishError

/-- `begin_error`. -/
def beginError (e : Error) : Walker × (Request ⊕ Completion) :=
  { w with error := some (w.error.getD e) }.beginCleanup

/-- `finish_missing`. -/
def finishMissing : Walker × (Request ⊕ Completion) := { w with error := none }.beginCleanup

/-- `finish`. -/
def finish (found : Bool) (leaf : Bytes) : Walker × (Request ⊕ Completion) :=
  (w, .inr (.finished found w.current w.owned leaf))

/-- `submit_stat`. -/
def submitStat : Walker × (Request ⊕ Completion) := (w, .inl (.statx w.current w.component))

/-- `submit_mkdir`. -/
def submitMkdir : Walker × (Request ⊕ Completion) := (w, .inl (.mkdirat w.current w.component))

/-- `submit_open_component`. -/
def submitOpenComponent :
    Walker × (Request ⊕ Completion) := (w, .inl (.openat w.current w.component))

/-- `submit_value_stat`. -/
def submitValueStat : Walker × (Request ⊕ Completion) := (w, .inl (.statx w.current valueName))

/-- `transition_to_child`. -/
def transitionToChild : Walker × (Request ⊕ Completion) :=
  if w.owned then ({ w with phase := .closeParent }, .inl (.close w.current))
  else
    { w with
      current := w.next.getD []
      next := none
      owned := true
      index := w.index + 1
      phase := .statComponent }.submitStat

/-- `advance` after `statx` of a component. -/
def afterStat : Except Errno (Reply F) → Walker × (Request ⊕ Completion)
  | .error .enoent =>
    if w.index + 1 = w.components.length then w.finish false w.component
    else if !w.create then w.finishMissing
    else { w with phase := .mkdirComponent }.submitMkdir
  | .error e => w.beginError (.system e "statx(cache path component)")
  | .ok (.node n) =>
    if w.index + 1 = w.components.length then
      match n with
      | .file _ => w.finish true w.component
      | .symlink => w.beginError (.system .eloop "non-regular cache object path")
      | .directory _ _ =>
        { w with leafDirectory := true, phase := .openComponent }.submitOpenComponent
    else
      match n with
      | .directory _ _ => { w with phase := .openComponent }.submitOpenComponent
      | .symlink =>
        if w.create then w.beginError (.system .eloop "non-directory inside cache tree")
        else w.finishMissing
      | .file _ =>
        if !w.create then w.finishMissing
        else
          ({ w with phase := .promoteRenameOut },
            .inl (.renameat w.current w.component w.current w.temporary))
  | .ok _ => w.beginError (.runtime "unexpected reply")

def opened : Except Errno (Reply F) → Option (List Bytes)
  | .ok (.opened p) => some p
  | _ => none

/-- `advance` after `openat` of a component. -/
def afterOpen (result : Except Errno (Reply F)) : Walker × (Request ⊕ Completion) :=
  match result with
  | .error e => w.beginError (.system e "openat(cache path component)")
  | .ok reply =>
    let w := { w with next := opened (.ok reply : Except Errno (Reply F)) }
    if w.leafDirectory then
      let w := { w with leafDirectory := false }
      if w.owned then
        ({ w with phase := .closeParent, valueAfterClose := true }, .inl (.close w.current))
      else
        { w with current := w.next.getD [], next := none, owned := true, phase :=
          .statValue }.submitValueStat
    else w.transitionToChild

/-- `advance` after the close of the parent. -/
def afterCloseParent (result : Except Errno (Reply F)) : Walker × (Request ⊕ Completion) :=
  match result with
  | .error e => w.beginError (.system e "close(cache path parent)")
  | .ok _ =>
    let w := { w with current := w.next.getD [], next := none, owned := true }
    if w.valueAfterClose then
      { w with valueAfterClose := false, phase := .statValue }.submitValueStat
    else { w with index := w.index + 1, phase := .statComponent }.submitStat

/-- `advance` after `statx` of the value. -/
def afterStatValue : Except Errno (Reply F) → Walker × (Request ⊕ Completion)
  | .error .enoent => w.finish false valueName
  | .error e => w.beginError (.system e "statx(cache value)")
  | .ok (.node (.file _)) => w.finish true valueName
  | .ok _ => w.beginError (.system .eloop "non-regular cache value path")

/-- `advance`. -/
def advance (result : Except Errno (Reply F)) : Walker × (Request ⊕ Completion) :=
  match w.phase with
  | .statComponent => w.afterStat result
  | .mkdirComponent =>
    match result with
    | .error .eexist => { w with phase := .statComponent }.submitStat
    | .error e => w.beginError (.system e "mkdirat(cache path component)")
    | .ok _ => { w with phase := .openComponent }.submitOpenComponent
  | .openComponent => w.afterOpen result
  | .promoteRenameOut =>
    match result with
    | .error .enoent => { w with phase := .statComponent }.submitStat
    | .error e => w.beginError (.system e "renameat(cache promotion source)")
    | .ok _ => { w with phase := .promoteMkdir }.submitMkdir
  | .promoteMkdir =>
    match result with
    | .error e => w.beginError (.system e "mkdirat(cache promotion)")
    | .ok _ => { w with phase := .promoteOpen }.submitOpenComponent
  | .promoteOpen =>
    match result with
    | .error e => w.beginError (.system e "openat(cache promotion)")
    | .ok reply =>
      let w := { w with next := opened (.ok reply : Except Errno (Reply F)) }
      ({ w with phase := .promoteRenameIn },
        .inl (.renameat w.current w.temporary (w.next.getD []) valueName))
  | .promoteRenameIn =>
    match result with
    | .error e => w.beginError (.system e "renameat(cache promotion value)")
    | .ok _ => w.transitionToChild
  | .closeParent => w.afterCloseParent result
  | .statValue => w.afterStatValue result
  | .errorCloseNext => { w with next := none }.closeCurrentOrFinishError
  | .errorCloseCurrent => { w with current := [], owned := false }.finishErrorNow

end Walker

/-- `CachePathWalker::start`. -/
def startWalk (components : List Bytes) (create : Bool) (temporary : Bytes) : Walker :=
  { components := components
    index := 0
    create := create
    temporary := temporary
    current := []
    next := none
    owned := false
    leafDirectory := false
    valueAfterClose := false
    error := none
    phase := .statComponent }

def drive : Nat → Tree F → Walker → Request → Option (Tree F × Completion)
  | 0, _, _, _ => none
  | n + 1, fs, w, request =>
    match perform fs request with
    | (fs, result) =>
      match w.advance result with
      | (w, .inl request) => drive n fs w request
      | (_, .inr completion) => some (fs, completion)

def walkValue (fs : Tree F) (p : List Bytes) : Tree F × Completion :=
  match fs (p ++ [valueName]) with
  | none => (fs, .finished false p true valueName)
  | some (.file _) => (fs, .finished true p true valueName)
  | some _ => (fs, .failed (.system .eloop "non-regular cache value path"))

def walk (create : Bool) (temporary : Bytes) (fs : Tree F) (dir : List Bytes) (owned : Bool)
    (name : Bytes) : List Bytes → Tree F × Completion
  | [] =>
    match fs (dir ++ [name]) with
    | none => (fs, .finished false dir owned name)
    | some (.file _) => (fs, .finished true dir owned name)
    | some .symlink => (fs, .failed (.system .eloop "non-regular cache object path"))
    | some (.directory _ _) => walkValue fs (dir ++ [name])
  | next :: rest =>
    match fs (dir ++ [name]) with
    | some (.directory _ _) => walk create temporary fs (dir ++ [name]) true next rest
    | some .symlink =>
      if create then (fs, .failed (.system .eloop "non-directory inside cache tree"))
      else (fs, .missing)
    | some (.file f) =>
      if create then
        walk create temporary (promotedVia fs dir name temporary f) (dir ++ [name]) true next rest
      else (fs, .missing)
    | none =>
      if create then
        walk create temporary (update fs (dir ++ [name]) (some (.directory true 0o700)))
          (dir ++ [name]) true next rest
      else (fs, .missing)

/-- The tree is one, and no directory has the temporary name. -/
structure Walkable (temporary : Bytes) (fs : Tree F) : Prop where
  closed : Closed fs
  free : ∀ dir own mode, fs (dir ++ [temporary]) ≠ some (.directory own mode)

section
variable {temporary : Bytes} {fs : Tree F} {dir : List Bytes} {name : Bytes} {f : F}

section
variable (walkable : Walkable temporary fs)
  (parent : ∃ own mode, fs dir = some (.directory own mode)) (apart : name ≠ temporary)
include walkable parent apart

lemma Walkable.mkdir :
    Walkable temporary (update fs (dir ++ [name]) (some (.directory true 0o700))) := by
  refine ⟨walkable.closed.set parent fun _ => ⟨_, _, rfl⟩, fun d own mode => ?_⟩
  rw [update_of_ne fun same => apart (append_singleton_inj same).2.symm]
  exact walkable.free d own mode

lemma Walkable.promoted {via} (file : fs (dir ++ [name]) = some (.file f))
    (unused : ∀ own mode, fs (dir ++ [via]) ≠ some (.directory own mode)) :
    Walkable temporary (promotedVia fs dir name via f) := by
  have parent' : ∃ own mode, update fs (dir ++ [via]) none dir =
      some (.directory own mode) := by
    rw [update_of_ne (append_ne_self _ _).symm]
    exact parent
  have cleared : Walkable temporary (update fs (dir ++ [via]) none) := by
    refine ⟨walkable.closed.set parent fun ⟨own, mode, found⟩ => absurd found (unused own mode),
      fun d own mode => ?_⟩
    by_cases here : d ++ [temporary] = dir ++ [via]
    · rw [here, update_self]
      exact nofun
    · rw [update_of_ne here]
      exact walkable.free d own mode
  have made := cleared.mkdir parent' apart
  refine ⟨made.closed.set ⟨_, _, update_self ..⟩ fun ⟨own, mode, found⟩ => ?_, fun d own mode => ?_⟩
  · have shut : fs (dir ++ [name] ++ [valueName]) = none :=
      walkable.closed.below (by rw [file]; exact nofun) _
    rw [update_of_ne (append_ne_self _ _)] at found
    by_cases here : dir ++ [name] ++ [valueName] = dir ++ [via]
    · rw [here, update_self] at found
      cases found
    · rw [update_of_ne here, shut] at found
      cases found
  · unfold promotedVia
    by_cases here : d ++ [temporary] = dir ++ [name] ++ [valueName]
    · rw [here, update_self]
      exact nofun
    · rw [update_of_ne here]
      exact made.free d own mode

end

structure Ready (temporary : Bytes) (fs : Tree F) (dir path : List Bytes) : Prop where
  walkable : Walkable temporary fs
  parent : ∃ own mode, fs dir = some (.directory own mode)
  apart : ∀ n ∈ path, n ≠ temporary
  plain : ∀ n ∈ path, n ≠ valueName

namespace Ready

variable {rest : List Bytes} (ready : Ready temporary fs dir (name :: rest))

include ready

lemma name_apart : name ≠ temporary := ready.apart name mem_cons_self

lemma enter {own mode} (found : fs (dir ++ [name]) = some (.directory own mode)) :
    Ready temporary fs (dir ++ [name]) rest :=
  ⟨ready.walkable, ⟨own, mode, found⟩, fun n mem => ready.apart n (mem_cons_of_mem _ mem),
    fun n mem => ready.plain n (mem_cons_of_mem _ mem)⟩

lemma mkdir : Ready temporary (update fs (dir ++ [name]) (some (.directory true 0o700)))
    (dir ++ [name]) rest :=
  ⟨ready.walkable.mkdir ready.parent ready.name_apart, ⟨_, _, update_self ..⟩,
    fun n mem => ready.apart n (mem_cons_of_mem _ mem),
    fun n mem => ready.plain n (mem_cons_of_mem _ mem)⟩

lemma promoted {via} (file : fs (dir ++ [name]) = some (.file f))
    (unused : ∀ own mode, fs (dir ++ [via]) ≠ some (.directory own mode)) :
    Ready temporary (promotedVia fs dir name via f) (dir ++ [name]) rest :=
  ⟨ready.walkable.promoted ready.parent ready.name_apart file unused,
    ⟨true, 0o700, promotedVia_here ..⟩,
    fun n mem => ready.apart n (mem_cons_of_mem _ mem),
    fun n mem => ready.plain n (mem_cons_of_mem _ mem)⟩

end Ready

end

def atComponent (components : List Bytes) (create : Bool) (temporary : Bytes) (index : Nat)
    (dir : List Bytes) (owned : Bool) : Walker :=
  { startWalk components create temporary with index := index, current := dir, owned := owned }

def Reaches (fs : Tree F) (w : Walker) (request : Request) (out : Tree F × Completion) : Prop :=
  ∃ n, ∀ m, n ≤ m → drive m fs w request = some out

section
variable {components : List Bytes} {create : Bool} {temporary : Bytes} {index : Nat}
    {dir : List Bytes}
  {owned : Bool} {name : Bytes} {fs fs' : Tree F} {w w' : Walker} {request request' : Request}
  {result : Except Errno (Reply F)} {completion : Completion} {out : Tree F × Completion}

lemma Reaches.next (served : perform fs request = (fs', result))
    (advanced : w.advance result = (w', .inl request')) (reaches : Reaches fs' w' request' out) :
    Reaches fs w request out := by
  obtain ⟨n, reaches⟩ := reaches
  refine ⟨n + 1, fun m more => ?_⟩
  obtain ⟨m, rfl⟩ := Nat.exists_eq_add_of_le more
  rw [Nat.add_right_comm, drive, served]
  simp only [advanced]
  exact reaches _ (Nat.le_add_right n m)

lemma Reaches.last (served : perform fs request = (fs', result))
    (advanced : w.advance result = (w', .inr completion)) :
    Reaches fs w request (fs', completion) := by
  refine ⟨1, fun m more => ?_⟩
  obtain ⟨m, rfl⟩ := Nat.exists_eq_add_of_le more
  rw [Nat.add_comm, drive, served]
  simp only [advanced]

lemma perform_statx_none (found : fs (dir ++ [name]) = none) :
    perform fs (.statx dir name) = (fs, .error .enoent) := by
  rw [perform, found]

lemma perform_statx_some {node} (found : fs (dir ++ [name]) = some node) :
    perform fs (.statx dir name) = (fs, .ok (.node node)) := by
  rw [perform, found]

lemma perform_openat {own mode} (found : fs (dir ++ [name]) = some (.directory own mode)) :
    perform fs (.openat dir name) = (fs, .ok (.opened (dir ++ [name]))) := by
  simp only [perform, openDirectory, found]

lemma finishErrorNow_eq (w : Walker) :
    w.finishErrorNow = (w, .inr (w.error.elim .missing .failed)) := by
  rw [Walker.finishErrorNow]
  cases w.error <;> rfl

lemma Reaches.cleanup (error : Option Error) (idle : w.next = none)
    (served : perform fs request = (fs', result))
    (advanced : w.advance result = { w with error := error }.beginCleanup) :
    Reaches fs w request (fs', error.elim .missing .failed) := by
  simp only [Walker.beginCleanup, idle, Walker.closeCurrentOrFinishError] at advanced
  cases held : w.owned with
  | false =>
    rw [held, if_neg Bool.false_ne_true, finishErrorNow_eq] at advanced
    exact .last served advanced
  | true =>
    rw [held, if_pos rfl] at advanced
    exact .next served advanced (.last rfl (finishErrorNow_eq _))

lemma Reaches.transition {p} (served : perform fs request = (fs', result)) (error : w.error = none)
    (leaf : w.leafDirectory = false) (value : w.valueAfterClose = false)
    (advanced : w.advance result = { w with next := some p }.transitionToChild)
    (reaches : Reaches fs' (atComponent w.components w.create w.temporary (w.index + 1) p true)
      (.statx p (w.components.getD (w.index + 1) [])) out) : Reaches fs w request out := by
  obtain ⟨components, index, create, temporary, current, next, owned, leafDirectory,
    valueAfterClose, e, phase⟩ := w
  subst error leaf value
  cases owned with
  | false => exact .next served advanced reaches
  | true => exact .next served advanced (.next rfl rfl reaches)

lemma getD_of_drop {rest} (here : components.drop index = name :: rest) :
    components.getD index [] = name := by
  have first := congrArg head? here
  rw [head?_drop, head?_cons] at first
  rw [getD_eq_getElem?_getD, first, Option.getD_some]

lemma length_of_drop {rest} (here : components.drop index = name :: rest) :
    components.length = index + 1 + rest.length := by
  have size := congrArg length here
  rw [length_drop, length_cons] at size
  omega

lemma reaches_value {p} (phase : w.phase = .statValue) (current : w.current = p)
    (held : w.owned = true) (idle : w.next = none) (error : w.error = none) :
    Reaches fs w (.statx p valueName) (walkValue fs p) := by
  have advance : ∀ result : Except Errno (Reply F), w.advance result = w.afterStatValue result := by
    intro result
    simp only [Walker.advance, phase]
  have finish : ∀ found,
      w.finish found valueName = (w, .inr (.finished found p true valueName)) := by
    intro found
    rw [Walker.finish, current, held]
  have refuse : ∀ e, w.beginError e = { w with error := some e }.beginCleanup := by
    intro e
    rw [Walker.beginError, error, Option.getD_none]
  rw [walkValue]
  cases found : fs (p ++ [valueName]) with
  | none => exact .last (perform_statx_none found) ((advance _).trans (finish false))
  | some node =>
    have served := perform_statx_some found
    cases node with
    | file f => exact .last served ((advance _).trans (finish true))
    | symlink => exact Reaches.cleanup (some _) idle served ((advance _).trans (refuse _))
    | directory own mode =>
        exact Reaches.cleanup (some _) idle served ((advance _).trans (refuse _))

section
variable (components create temporary index dir owned)

lemma afterStat_last (last : index + 1 = components.length)
    (named : components.getD index [] = name) (found : Option (Node F)) :
    let w := atComponent components create temporary index dir owned
    w.advance (found.elim (.error .enoent) fun node => .ok (.node node)) =
      match found with
      | none => w.finish false name
      | some (.file _) => w.finish true name
      | some .symlink => w.beginError (.system .eloop "non-regular cache object path")
      | some (.directory _ _) =>
        { w with leafDirectory := true, phase := .openComponent }.submitOpenComponent := by
  cases found with
  | none =>
    simp only [Option.elim, Walker.advance, atComponent, startWalk, Walker.afterStat, last, if_true,
      Walker.component, named]
  | some node =>
    cases node <;> simp only [Option.elim, Walker.advance, atComponent, startWalk, Walker.afterStat,
      last, if_true, Walker.component, named]

lemma afterStat_more (more : index + 1 ≠ components.length)
    (named : components.getD index [] = name) (found : Option (Node F)) :
    let w := atComponent components create temporary index dir owned
    w.advance (found.elim (.error .enoent) fun node => .ok (.node node)) =
      match found with
      | none =>
        if !create then w.finishMissing
        else ({ w with phase := .mkdirComponent }, .inl (.mkdirat dir name))
      | some (.directory _ _) =>
        ({ w with phase := .openComponent }, .inl (.openat dir name))
      | some .symlink =>
        if create then w.beginError (.system .eloop "non-directory inside cache tree")
        else w.finishMissing
      | some (.file _) =>
        if !create then w.finishMissing
        else ({ w with phase := .promoteRenameOut }, .inl (.renameat dir name dir temporary)) := by
  cases found with
  | none =>
    simp only [Option.elim, Walker.advance, atComponent, startWalk, Walker.afterStat, more,
        if_false, Walker.component, named, Walker.submitMkdir]
  | some node =>
    cases node with
    | symlink => cases create <;> simp [Walker.advance, atComponent, startWalk,
        Walker.afterStat, more]
    | file f =>
      simp only [Option.elim, Walker.advance, atComponent, startWalk, Walker.afterStat, more,
          if_false, Walker.component, named]
    | directory own mode =>
      simp only [Option.elim, Walker.advance, atComponent, startWalk, Walker.afterStat, more,
          if_false, Walker.component, named, Walker.submitOpenComponent]

end

lemma reaches_last (here : components.drop index = [name]) :
    Reaches fs (atComponent components create temporary index dir owned) (.statx dir name)
      (walk create temporary fs dir owned name []) := by
  have named := getD_of_drop here
  have last : index + 1 = components.length := (length_of_drop here).symm
  have advance := afterStat_last components create temporary index dir owned (F := F) last named
  rw [walk]
  cases found : fs (dir ++ [name]) with
  | none => exact .last (perform_statx_none found) (advance none)
  | some node =>
    have served := perform_statx_some found
    have advanced := advance (some node)
    cases node with
    | file f => exact .last served advanced
    | symlink => exact Reaches.cleanup (some _) rfl served advanced
    | directory own mode =>
      refine .next served advanced ?_
      show Reaches fs _ (.openat dir (components.getD index [])) _
      rw [named]
      cases owned with
      | false =>
        refine .next (perform_openat found) rfl ?_
        exact reaches_value rfl rfl rfl rfl rfl
      | true =>
        refine .next (perform_openat found) rfl (.next rfl rfl ?_)
        exact reaches_value rfl rfl rfl rfl rfl

lemma reaches_walk {rest} :
    ∀ {index : Nat} {dir : List Bytes} {owned : Bool} {name : Bytes}
    {fs : Tree F}, components.drop index = name :: rest → Ready temporary fs dir (name :: rest) →
    Reaches fs (atComponent components create temporary index dir owned) (.statx dir name)
      (walk create temporary fs dir owned name rest) := by
  induction rest with
  | nil =>
    intro index dir owned name fs here ready
    exact reaches_last here
  | cons next rest ih =>
    intro index dir owned name fs here ready
    have named := getD_of_drop here
    have more : index + 1 ≠ components.length := by
      have := length_of_drop here
      rw [length_cons] at this
      omega
    have there : components.drop (index + 1) = next :: rest := by
      rw [← drop_drop, here, drop_one, tail_cons]
    have named' := getD_of_drop there
    have advance := afterStat_more components create temporary index dir owned (F := F) more named
    rw [walk]
    cases found : fs (dir ++ [name]) with
    | none =>
      have served := perform_statx_none found
      have advanced := advance none
      cases create with
      | false => exact Reaches.cleanup none rfl served advanced
      | true =>
        refine .next served advanced ?_
        have made : perform fs (.mkdirat dir name) =
            (update fs (dir ++ [name]) (some (.directory true 0o700)), .ok .done) := by
          simp only [perform, mkdirat, found]
        refine .next made rfl ?_
        show Reaches _ _ (.openat dir (components.getD index [])) _
        rw [named]
        refine Reaches.transition (perform_openat (update_self ..)) rfl rfl rfl rfl ?_
        show Reaches _ _ (.statx _ (components.getD (index + 1) [])) _
        rw [named']
        exact ih there ready.mkdir
    | some node =>
      have served := perform_statx_some found
      have advanced := advance (some node)
      cases node with
      | symlink =>
        cases create with
        | false => exact Reaches.cleanup none rfl served advanced
        | true => exact Reaches.cleanup (some _) rfl served advanced
      | directory own mode =>
        refine .next served advanced (Reaches.transition (perform_openat found) rfl rfl rfl rfl ?_)
        show Reaches _ _ (.statx _ (components.getD (index + 1) [])) _
        rw [named']
        exact ih there (ready.enter found)
      | file f =>
        cases create with
        | false => exact Reaches.cleanup none rfl served advanced
        | true =>
          obtain ⟨moved, made, out, mkdir, present, inside⟩ :=
            promotion_calls ready.walkable.closed found ready.name_apart (ready.walkable.free dir)
          refine .next served advanced ?_
          have renamed : perform fs (.renameat dir name dir temporary) = (moved, .ok .done) := by
            simp only [perform, out]
          refine .next renamed rfl ?_
          show Reaches _ _ (.mkdirat dir (components.getD index [])) _
          rw [named]
          have mkdir' : perform moved (.mkdirat dir name) = (made, .ok .done) := by
            simp only [perform, mkdir]
          refine .next mkdir' rfl ?_
          show Reaches _ _ (.openat dir (components.getD index [])) _
          rw [named]
          refine .next (perform_openat present) rfl ?_
          have inside' : perform made (.renameat dir temporary (dir ++ [name]) valueName) =
              (promotedVia fs dir name temporary f, .ok .done) := by
            simp only [perform, inside]
          refine Reaches.transition inside' rfl rfl rfl rfl ?_
          show Reaches _ _ (.statx _ (components.getD (index + 1) [])) _
          rw [named']
          exact ih there (ready.promoted found (ready.walkable.free dir))

end

end Ngs3fs.Paths
