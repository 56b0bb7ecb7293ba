import Ngs3fs.Lib.FileTree
import Ngs3fs.Paths.Encode

/-!
# The leaf of a key

`cache_leaf` and `cache_find_leaf`: a key is a path in a directory tree, and a key that is also a
prefix of others has its file in the directory of its path, under the name `kCacheValueName`.
`cache_leaf` makes the directories, and moves a file that stands in the way into the directory that
takes its place. -/

namespace Ngs3fs.Paths

open FileTree Function

variable {F : Type}

inductive Error where
  | system (errno : Errno) (what : String)
  | runtime (what : String)
  deriving DecidableEq

abbrev Tree (F : Type) := Fs Bytes F

/-- An open directory and a name in it. -/
abbrev Leaf := List Bytes × Bytes

/-- `cache_secure_directory`. -/
def secureDirectory (fs : Tree F) (p : List Bytes) : Tree F × Except Error Unit :=
  match fs p with
  | some (.directory own mode) =>
    if !own then (fs, .error (.runtime "cache directory is not owned by the mounting user"))
    else if mode ≠ 0o700 then (update fs p (some (.directory true 0o700)), .ok ())
    else (fs, .ok ())
  | _ => (fs, .error (.runtime "cache directory is not owned by the mounting user"))

/-- `cache_open_directory`. -/
def cacheOpenDirectory (fs : Tree F) (dir : List Bytes) (name : Bytes) :
    Tree F × Except Error (List Bytes) :=
  match openDirectory fs dir name with
  | .error e => (fs, .error (.system e "openat(cache directory)"))
  | .ok p =>
    match secureDirectory fs p with
    | (fs, .error e) => (fs, .error e)
    | (fs, .ok ()) => (fs, .ok p)

/-- `cache_mkdir_if_missing`. -/
def mkdirIfMissing (fs : Tree F) (dir : List Bytes) (name : Bytes) : Tree F × Except Error Unit :=
  match mkdirat fs dir name with
  | .ok fs => (fs, .ok ())
  | .error .eexist => (fs, .ok ())
  | .error e => (fs, .error (.system e "mkdirat(cache)"))

/-- `cache_is_directory`. -/
def cacheIsDirectory (fs : Tree F) (dir : List Bytes) (name : Bytes) : Except Error Bool :=
  match fs (dir ++ [name]) with
  | none => .ok false
  | some .symlink => .error (.system .eloop "symlink inside cache tree")
  | some node => .ok node.isDirectory

/-- What is undone when `cache_promote_file` fails. -/
def promoteInto (fs : Tree F) (dir : List Bytes) (name temporary : Bytes) :
    Tree F × Except Error Unit :=
  match mkdirat fs dir name with
  | .error e => (fs, .error (.system e "mkdirat(cache promotion)"))
  | .ok fs =>
    match cacheOpenDirectory fs dir name with
    | (fs, .error e) => (fs, .error e)
    | (fs, .ok p) =>
      match renameat fs dir temporary p valueName with
      | .error e => (fs, .error (.system e "renameat(cache promotion value)"))
      | .ok fs => (fs, .ok ())

/-- `cache_promote_file`. -/
def cachePromoteFile (fs : Tree F) (dir : List Bytes) (name temporary : Bytes) :
    Tree F × Except Error Unit :=
  match renameat fs dir name dir temporary with
  | .error e => (fs, .error (.system e "renameat(cache promotion source)"))
  | .ok fs =>
    match promoteInto fs dir name temporary with
    | (fs, .ok ()) => (fs, .ok ())
    | (fs, .error e) =>
      let fs := (rmdir fs dir name).toOption.getD fs
      ((renameat fs dir temporary dir name).toOption.getD fs, .error e)

/-- A component of `cache_leaf` that is not the last. -/
def makePrefix (fs : Tree F) (dir : List Bytes) (name temporary : Bytes) :
    Tree F × Except Error Unit :=
  match fs (dir ++ [name]) with
  | none => mkdirIfMissing fs dir name
  | some (.file _) => cachePromoteFile fs dir name temporary
  | some (.directory _ _) => (fs, .ok ())
  | some .symlink => (fs, .error (.system .eloop "non-directory inside cache tree"))

/-- `cache_leaf`, from an open directory on. -/
def cacheLeaf (temporary : Bytes) (fs : Tree F) (dir : List Bytes) (name : Bytes) :
    List Bytes → Tree F × Except Error Leaf
  | [] =>
    match cacheIsDirectory fs dir name with
    | .error e => (fs, .error e)
    | .ok false => (fs, .ok (dir, name))
    | .ok true =>
      match cacheOpenDirectory fs dir name with
      | (fs, .error e) => (fs, .error e)
      | (fs, .ok p) => (fs, .ok (p, valueName))
  | next :: rest =>
    match makePrefix fs dir name temporary with
    | (fs, .error e) => (fs, .error e)
    | (fs, .ok ()) =>
      match cacheOpenDirectory fs dir name with
      | (fs, .error e) => (fs, .error e)
      | (fs, .ok p) => cacheLeaf temporary fs p next rest

/-- The last component in `cache_find_leaf`. -/
def findLast (fs : Tree F) (dir : List Bytes) (name : Bytes) :
    Node F → Tree F × Except Error (Option Leaf)
  | .file _ => (fs, .ok (some (dir, name)))
  | .symlink => (fs, .error (.runtime "non-regular cache object path"))
  | .directory _ _ =>
    match cacheOpenDirectory fs dir name with
    | (fs, .error e) => (fs, .error e)
    | (fs, .ok p) =>
      match fs (p ++ [valueName]) with
      | none => (fs, .ok none)
      | some (.file _) => (fs, .ok (some (p, valueName)))
      | some _ => (fs, .error (.runtime "non-regular cache object path"))

/-- `cache_find_leaf`, from an open directory on. -/
def cacheFindLeaf (fs : Tree F) (dir : List Bytes) (name : Bytes) :
    List Bytes → Tree F × Except Error (Option Leaf)
  | [] =>
    match fs (dir ++ [name]) with
    | none => (fs, .ok none)
    | some node => findLast fs dir name node
  | next :: rest =>
    match fs (dir ++ [name]) with
    | some (.directory _ _) =>
      match cacheOpenDirectory fs dir name with
      | (fs, .error e) => (fs, .error e)
      | (fs, .ok p) => cacheFindLeaf fs p next rest
    | _ => (fs, .ok none)

def Plain (p : List Bytes) : Prop := ∀ name ∈ p, ¬Reserved name

section
variable {fs : Tree F} {p q dir : List Bytes} {name temporary : Bytes} {f : F}

lemma plain_encodedPath (names : Names) (key : Bytes) : Plain (encodedPath names key) := by
  intro name mem
  obtain ⟨c, -, rfl⟩ := List.mem_map.1 mem
  exact encodeComponent_not_reserved names c

lemma plain_ne_value (plain : Plain p) (q : List Bytes) : p ≠ q ++ [valueName] := by
  rintro rfl
  exact plain valueName (List.mem_append_right _ (List.mem_singleton_self _)) reserved_valueName

lemma cacheOpenDirectory_eq (found : fs (dir ++ [name]) = some (.directory true 0o700)) :
    cacheOpenDirectory fs dir name = (fs, .ok (dir ++ [name])) := by
  rw [cacheOpenDirectory, openDirectory, found]
  simp only [secureDirectory, found]
  rfl

/-- The file is in the directory that took its place, and nothing has the temporary name. -/
def promotedVia (fs : Tree F) (dir : List Bytes) (name temporary : Bytes) (f : F) : Tree F :=
  update
    (update (update fs (dir ++ [temporary]) none) (dir ++ [name])
      (some (.directory true 0o700)))
    (dir ++ [name] ++ [valueName]) (some (.file f))

lemma promotedVia_here (fs : Tree F) (dir : List Bytes) (name temporary : Bytes) (f : F) :
    promotedVia fs dir name temporary f (dir ++ [name]) = some (.directory true 0o700) := by
  rw [promotedVia, update_of_ne (append_ne_self _ _).symm, update_self]

section
variable (closed : Closed fs) (file : fs (dir ++ [name]) = some (.file f))
  (apart : name ≠ temporary)
  (free : ∀ own mode, fs (dir ++ [temporary]) ≠ some (.directory own mode))
include closed file apart free

lemma promotion_calls :
    ∃ moved made, renameat fs dir name dir temporary = .ok moved ∧
      mkdirat moved dir name = .ok made ∧ made (dir ++ [name]) = some (.directory true 0o700) ∧
      renameat made dir temporary (dir ++ [name]) valueName =
        .ok (promotedVia fs dir name temporary f) := by
  have shut : ∀ n, fs (dir ++ [name] ++ [n]) = none :=
    closed.below (by rw [file]; exact nofun)
  have apart' : dir ++ [temporary] ≠ dir ++ [name] :=
    fun same => apart (append_singleton_inj same).2.symm
  have deeper : dir ++ [name] ++ [valueName] ≠ dir ++ [name] := append_ne_self _ _
  have deeper' : dir ++ [name] ++ [valueName] ≠ dir ++ [temporary] := by
    intro same
    have := congrArg List.length same
    simp at this
  set moved := update (update fs (dir ++ [name]) none) (dir ++ [temporary])
    (some (.file f)) with hmoved
  set made := update moved (dir ++ [name]) (some (.directory true 0o700)) with hmade
  have vacated : moved (dir ++ [name]) = none := by
    rw [hmoved, update_of_ne apart'.symm, update_self]
  have source : made (dir ++ [temporary]) = some (.file f) := by
    rw [hmade, update_of_ne apart', hmoved, update_self]
  have target : made (dir ++ [name] ++ [valueName]) = none := by
    rw [hmade, update_of_ne deeper, hmoved, update_of_ne deeper', update_of_ne deeper]
    exact shut valueName
  refine ⟨moved, made, ?_, ?_, update_self .., ?_⟩
  · rw [renameat, file]
    cases there : fs (dir ++ [temporary]) with
    | none => rfl
    | some node =>
      cases node with
      | directory own mode => exact absurd there (free own mode)
      | file _ | symlink => rfl
  · rw [mkdirat, vacated]
  · rw [renameat, source, target]
    refine congrArg Except.ok (funext fun q => ?_)
    rw [promotedVia]
    by_cases value : q = dir ++ [name] ++ [valueName]
    · rw [value, update_self, update_self]
    · rw [update_of_ne value, update_of_ne value]
      by_cases here : q = dir ++ [name]
      · rw [here, update_of_ne apart'.symm, hmade, update_self, update_self]
      · rw [update_of_ne here]
        by_cases gone : q = dir ++ [temporary]
        · rw [gone, update_self, update_self]
        · rw [update_of_ne gone, update_of_ne gone, hmade, update_of_ne here, hmoved,
            update_of_ne gone, update_of_ne here]

lemma cachePromoteFile_eq :
    cachePromoteFile fs dir name temporary = (promotedVia fs dir name temporary f, .ok ()) := by
  obtain ⟨moved, made, out, mkdir, present, inside⟩ := promotion_calls closed file apart free
  rw [cachePromoteFile, out]
  simp only [promoteInto, mkdir]
  rw [cacheOpenDirectory_eq present]
  simp only [inside]

end

end

end Ngs3fs.Paths
