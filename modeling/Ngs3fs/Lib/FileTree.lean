import Mathlib.Tactic.Common

/-!
# A tree of files by path

A file system as a function from paths to what stands there, with the calls that look up a name in
an open directory. A directory is never moved, so its path stays its own. -/

namespace FileTree
open Function

variable {N F : Type}

inductive Node (F : Type) where
  | file (f : F)
  | directory (own : Bool) (mode : Nat)
  | symlink
  deriving DecidableEq

/-- A file system, from the root down. -/
abbrev Fs (N F : Type) := List N → Option (Node F)

inductive Errno where
  | enoent
  | eexist
  | enotdir
  | eisdir
  | eloop
  deriving DecidableEq

namespace Node

def isFile : Node F → Bool
  | .file _ => true
  | _ => false

def isDirectory : Node F → Bool
  | .directory _ _ => true
  | _ => false

end Node

/-- Below a path there is something only if it is a directory. -/
def Closed (fs : Fs N F) : Prop :=
  ∀ p name, fs (p ++ [name]) ≠ none → ∃ own mode, fs p = some (.directory own mode)

lemma append_ne_self (p : List N) (name : N) : p ++ [name] ≠ p := by
  intro h
  have := congrArg List.length h
  simp at this

lemma append_singleton_inj {p q} {name name' : N} (h : p ++ [name] = q ++ [name']) :
    p = q ∧ name = name' :=
  List.append_inj' h rfl |>.imp_right fun h => List.singleton_inj.1 h

lemma Closed.below {fs : Fs N F} {p} (closed : Closed fs)
    (h : ∀ own mode, fs p ≠ some (.directory own mode)) (name : N) : fs (p ++ [name]) = none := by
  by_contra some
  obtain ⟨own, mode, dir⟩ := closed p name some
  exact h own mode dir

variable [DecidableEq N]

lemma Closed.set {fs dir} {name : N} {node : Option (Node F)} (closed : Closed fs)
    (parent : ∃ own mode, fs dir = some (.directory own mode))
    (keep : (∃ own mode, fs (dir ++ [name]) = some (.directory own mode)) →
      ∃ own mode, node = some (.directory own mode)) :
    Closed (update fs (dir ++ [name]) node) := by
  intro p n found
  by_cases new : p ++ [n] = dir ++ [name]
  · obtain ⟨rfl, rfl⟩ := append_singleton_inj new
    rw [update_of_ne (append_ne_self p n).symm]
    exact parent
  · rw [update_of_ne new] at found
    have directory := closed p n found
    by_cases here : p = dir ++ [name]
    · subst here
      rw [update_self]
      exact keep directory
    · rw [update_of_ne here]
      exact directory

def mkdirat (fs : Fs N F) (dir : List N) (name : N) : Except Errno (Fs N F) :=
  match fs (dir ++ [name]) with
  | some _ => .error .eexist
  | none => .ok (update fs (dir ++ [name]) (some (.directory true 0o700)))

/-- `openat` with `O_DIRECTORY | O_NOFOLLOW`. -/
def openDirectory (fs : Fs N F) (dir : List N) (name : N) : Except Errno (List N) :=
  match fs (dir ++ [name]) with
  | none => .error .enoent
  | some (.file _) => .error .enotdir
  | some .symlink => .error .eloop
  | some (.directory _ _) => .ok (dir ++ [name])

/-- `renameat` of something that is not a directory. -/
def renameat (fs : Fs N F) (dir : List N) (name : N) (dir' : List N) (name' : N) :
    Except Errno (Fs N F) :=
  match fs (dir ++ [name]) with
  | none => .error .enoent
  | some (.directory _ _) => .error .eisdir
  | some node =>
    match fs (dir' ++ [name']) with
    | some (.directory _ _) => .error .eisdir
    | _ => .ok (update (update fs (dir ++ [name]) none) (dir' ++ [name']) (some node))

/-- `unlinkat` with `AT_REMOVEDIR` of a directory without entries. -/
def rmdir (fs : Fs N F) (dir : List N) (name : N) : Except Errno (Fs N F) :=
  match fs (dir ++ [name]) with
  | none => .error .enoent
  | some (.directory _ _) => .ok (update fs (dir ++ [name]) none)
  | some _ => .error .enotdir

def unlinkat (fs : Fs N F) (dir : List N) (name : N) : Except Errno (Fs N F) :=
  match fs (dir ++ [name]) with
  | none => .error .enoent
  | some (.directory _ _) => .error .eisdir
  | some _ => .ok (update fs (dir ++ [name]) none)

end FileTree
