import Mathlib.Data.List.Induction
import Ngs3fs.Lib.Machine
import Ngs3fs.Paths.Leaf

/-!
# The tree of cache files is a map from keys

Files are made at the leaf `cache_leaf` gives for a key, looked up and unlinked at the leaf
`cache_find_leaf` gives. `fileAt` is the file of a key, wherever it has been moved to; every
operation does to it what it does to the map, and nothing to the files of other keys. -/

namespace Ngs3fs.Paths

open FileTree Machine List Function

variable {F : Type}

/-- `cache_leaf`, and the file made there with `O_CREAT`. -/
def store (names : Names) (fs : Tree F) (key temporary : Bytes) (f : F) :
    Tree F × Except Error Unit :=
  match encodedPath names key with
  | [] => (fs, .error (.runtime "empty cache key"))
  | name :: rest =>
    match cacheLeaf temporary fs [] name rest with
    | (fs, .error e) => (fs, .error e)
    | (fs, .ok (dir, name)) =>
      match fs (dir ++ [name]) with
      | none => (update fs (dir ++ [name]) (some (.file f)), .ok ())
      | some (.file _) => (fs, .ok ())
      | some (.directory _ _) => (fs, .error (.system .eisdir "openat"))
      | some .symlink => (fs, .error (.system .eloop "openat"))

/-- `cache_find_leaf` of a key. -/
def find (names : Names) (fs : Tree F) (key : Bytes) : Tree F × Except Error (Option Leaf) :=
  match encodedPath names key with
  | [] => (fs, .error (.runtime "empty cache key"))
  | name :: rest => cacheFindLeaf fs [] name rest

/-- `unlinkat` of what `cache_find_leaf` finds. -/
def remove (names : Names) (fs : Tree F) (key : Bytes) : Tree F × Except Error Unit :=
  match find names fs key with
  | (fs, .error e) => (fs, .error e)
  | (fs, .ok none) => (fs, .ok ())
  | (fs, .ok (some (dir, name))) =>
    match unlinkat fs dir name with
    | .error e => (fs, .error (.system e "unlinkat"))
    | .ok fs => (fs, .ok ())

/-- `store` is a file creation in a process and with a number of promotions. -/
inductive Op (F : Type) where
  | store (key : Bytes) (f : F) (pid sequence : Nat)
  | find (key : Bytes)
  | remove (key : Bytes)

def Op.key : Op F → Bytes
  | .store key _ _ _ => key
  | .find key => key
  | .remove key => key

/-- A call that ends without an error. -/
def step (names : Names) (fs : Tree F) : Op F → Option (Tree F)
  | .store key f pid sequence =>
    match store names fs key (temporaryName pid sequence) f with
    | (fs, .ok ()) => some fs
    | (_, .error _) => none
  | .find key =>
    match find names fs key with
    | (fs, .ok _) => some fs
    | (_, .error _) => none
  | .remove key =>
    match remove names fs key with
    | (fs, .ok ()) => some fs
    | (_, .error _) => none

def Op.apply (m : Bytes → Option F) (op : Op F) (k : Bytes) : Option F :=
  match op with
  | .store key f _ _ => if k = key then some ((m key).getD f) else m k
  | .find _ => m k
  | .remove key => if k = key then none else m k

def foundFile (names : Names) (fs : Tree F) (key : Bytes) : Except Error (Option F) :=
  match find names fs key with
  | (_, .error e) => .error e
  | (_, .ok none) => .ok none
  | (fs, .ok (some (dir, name))) =>
    match fs (dir ++ [name]) with
    | some (.file f) => .ok (some f)
    | _ => .ok none

def emptyTree : Tree F := fun p => if p = [] then some (.directory true 0o700) else none

def fileAt (fs : Tree F) (p : List Bytes) : Option F :=
  match fs p with
  | some (.file f) => some f
  | some (.directory _ _) =>
    match fs (p ++ [valueName]) with
    | some (.file f) => some f
    | _ => none
  | _ => none

def leafPath (fs : Tree F) (p : List Bytes) : List Bytes :=
  match fs p with
  | some (.directory _ _) => p ++ [valueName]
  | _ => p

/-- Directories of the mounting user, and files; of the names the cache keeps for itself only the
value name, for files. -/
structure Good (fs : Tree F) : Prop where
  root : fs [] = some (.directory true 0o700)
  closed : Closed fs
  nodes : ∀ p node, fs p = some node → (∃ f, node = .file f) ∨ node = .directory true 0o700
  reserved : ∀ p name, Reserved name → fs (p ++ [name]) ≠ none →
    name = valueName ∧ ∃ f, fs (p ++ [name]) = some (.file f)

section
variable {fs : Tree F} {p q dir : List Bytes} {name : Bytes} {f : F}

lemma Good.below_all (good : Good fs) (h : ∀ own mode, fs p ≠ some (.directory own mode)) :
    ∀ (rest : List Bytes), rest ≠ [] → fs (p ++ rest) = none := by
  intro rest
  induction rest using reverseRecOn with
  | nil => exact fun empty => absurd rfl empty
  | append_singleton rest name ih =>
    intro _
    rw [← append_assoc]
    by_cases empty : rest = []
    · subst empty
      rw [append_nil]
      exact good.closed.below h name
    · refine good.closed.below (fun own mode => ?_) name
      rw [ih empty]
      exact nofun

lemma Good.mkdir (good : Good fs) (parent : fs dir = some (.directory true 0o700))
    (plain : Plain (dir ++ [name])) (absent : fs (dir ++ [name]) = none) :
    Good (update fs (dir ++ [name]) (some (.directory true 0o700))) ∧
      ∀ q, Plain q → fileAt (update fs (dir ++ [name]) (some (.directory true 0o700))) q =
        fileAt fs q := by
  refine ⟨⟨?_, fun p n some => ?_, fun p node some => ?_, fun p n res some => ?_⟩,
      fun q plainQ => ?_⟩
  · rw [update_of_ne (by simp)]
    exact good.root
  · exact good.closed.set ⟨_, _, parent⟩ (fun _ => ⟨_, _, rfl⟩) p n some
  · by_cases new : p = dir ++ [name]
    · subst new
      rw [update_self] at some
      cases some
      exact .inr rfl
    · rw [update_of_ne new] at some
      exact good.nodes p node some
  · have away : p ++ [n] ≠ dir ++ [name] := by
      intro same
      obtain ⟨rfl, rfl⟩ := append_singleton_inj same
      exact plain n (mem_append_right _ (mem_singleton_self _)) res
    rw [update_of_ne away] at some ⊢
    exact good.reserved p n res some
  · have value : ∀ q, q ++ [valueName] ≠ dir ++ [name] := fun q => (plain_ne_value plain q).symm
    rw [fileAt, fileAt, update_of_ne (value q)]
    by_cases here : q = dir ++ [name]
    · subst here
      rw [update_self, absent, good.closed.below (by rw [absent]; exact nofun)]
    · rw [update_of_ne here]

def promoted (fs : Tree F) (p : List Bytes) (f : F) : Tree F :=
  update (update fs p (some (.directory true 0o700))) (p ++ [valueName])
    (some (.file f))

lemma Good.promoted (good : Good fs) (parent : fs dir = some (.directory true 0o700))
    (plain : Plain (dir ++ [name])) (file : fs (dir ++ [name]) = some (.file f)) :
    Good (promoted fs (dir ++ [name]) f) ∧
      ∀ q, Plain q → fileAt (Paths.promoted fs (dir ++ [name]) f) q = fileAt fs q := by
  set p := dir ++ [name] with hp
  have deeper : p ++ [valueName] ≠ p := append_ne_self p valueName
  have at_p : Paths.promoted fs p f p = some (.directory true 0o700) := by
    rw [Paths.promoted, update_of_ne deeper.symm, update_self]
  have at_value : Paths.promoted fs p f (p ++ [valueName]) = some (.file f) :=
    update_self ..
  have elsewhere : ∀ q, q ≠ p → q ≠ p ++ [valueName] → Paths.promoted fs p f q = fs q := by
    intro q h h'
    rw [Paths.promoted, update_of_ne h', update_of_ne h]
  have shut : ∀ n, fs (p ++ [n]) = none := good.closed.below (by rw [file]; exact nofun)
  refine ⟨⟨?_, fun q n some => ?_, fun q node some => ?_, fun q n res some => ?_⟩,
      fun q plainQ => ?_⟩
  · rw [elsewhere [] (by simp [hp]) (by simp)]
    exact good.root
  · refine (good.closed.set ⟨_, _, parent⟩ (fun _ => ⟨_, _, rfl⟩)).set ⟨_, _, update_self ..⟩
      (fun directory => ?_) q n some
    obtain ⟨own, mode, found⟩ := directory
    rw [update_of_ne deeper, shut] at found
    cases found
  · by_cases here : q = p
    · subst here
      rw [at_p] at some
      cases some
      exact .inr rfl
    · by_cases value : q = p ++ [valueName]
      · subst value
        rw [at_value] at some
        cases some
        exact .inl ⟨f, rfl⟩
      · rw [elsewhere q here value] at some
        exact good.nodes q node some
  · by_cases value : q ++ [n] = p ++ [valueName]
    · obtain ⟨rfl, rfl⟩ := append_singleton_inj value
      exact ⟨rfl, f, at_value⟩
    · have here : q ++ [n] ≠ p := by
        intro same
        rw [hp] at same
        obtain ⟨rfl, rfl⟩ := append_singleton_inj same
        exact plain n (mem_append_right _ (mem_singleton_self _)) res
      rw [elsewhere _ here value] at some ⊢
      exact good.reserved q n res some
  · have leaf := plain_ne_value plainQ p
    by_cases here : q = p
    · subst here
      rw [fileAt, fileAt, at_p, at_value, file]
    · have value : q ++ [valueName] ≠ p ++ [valueName] := by
        intro same
        exact here (append_singleton_inj same).1
      rw [fileAt, fileAt, elsewhere q here leaf, elsewhere _ (plain_ne_value plain q).symm value]

lemma Good.temporary (good : Good fs) (p : List Bytes) (pid sequence : Nat) :
    fs (p ++ [temporaryName pid sequence]) = none := by
  by_contra some
  have value := (good.reserved p _ (reserved_temporaryName pid sequence) some).1
  have letter : temporaryName pid sequence = escapePrefix ++
      (ascii "promote-" ++ (ascii (toString pid) ++ (ascii "-" ++ ascii (toString sequence)))) := by
    simp only [temporaryName, append_assoc]
  have other : valueName = escapePrefix ++ ascii "value" := rfl
  rw [letter, other] at value
  cases append_cancel_left value

lemma Good.cachePromoteFile_eq (good : Good fs) (file : fs (dir ++ [name]) = some (.file f))
    (plain : Plain (dir ++ [name])) (pid sequence : Nat) :
    cachePromoteFile fs dir name (temporaryName pid sequence) =
      (Paths.promoted fs (dir ++ [name]) f, .ok ()) := by
  have absent := good.temporary dir pid sequence
  have apart : name ≠ temporaryName pid sequence := by
    rintro rfl
    exact plain _ (mem_append_right _ (mem_singleton_self _)) (reserved_temporaryName pid sequence)
  have untouched : update fs (dir ++ [temporaryName pid sequence]) none = fs :=
    update_eq_self_iff.2 absent.symm
  rw [Paths.cachePromoteFile_eq good.closed file apart (by rw [absent]; exact nofun), promotedVia,
    untouched, Paths.promoted]

lemma Good.makePrefix (good : Good fs) (parent : fs dir = some (.directory true 0o700))
    (plain : Plain (dir ++ [name])) (pid sequence : Nat) :
    ∃ fs', Paths.makePrefix fs dir name (temporaryName pid sequence) = (fs', .ok ()) ∧ Good fs' ∧
      fs' (dir ++ [name]) = some (.directory true 0o700) ∧ ∀ q, Plain q →
          fileAt fs' q = fileAt fs q := by
  rw [Paths.makePrefix]
  cases found : fs (dir ++ [name]) with
  | none =>
    obtain ⟨good', same⟩ := good.mkdir parent plain found
    refine ⟨_, ?_, good', update_self .., same⟩
    rw [mkdirIfMissing, mkdirat, found]
  | some node =>
    obtain ⟨f, rfl⟩ | rfl := good.nodes _ _ found
    · obtain ⟨good', same⟩ := good.promoted parent plain found
      refine ⟨_, good.cachePromoteFile_eq found plain pid sequence, good', ?_, same⟩
      rw [Paths.promoted, update_of_ne (append_ne_self _ _).symm, update_self]
    · exact ⟨fs, rfl, good, found, fun _ _ => rfl⟩

lemma Good.cacheLeaf (pid sequence : Nat) {rest} : ∀ {fs : Tree F} {dir : List Bytes}
    {name : Bytes}, Good fs → fs dir = some (.directory true 0o700) → Plain (dir ++ name :: rest) →
    ∃ fs' dir' name', Paths.cacheLeaf (temporaryName pid sequence) fs dir name rest =
        (fs', .ok (dir', name')) ∧ Good fs' ∧ fs' dir' = some (.directory true 0o700) ∧
      dir' ++ [name'] = leafPath fs' (dir ++ name :: rest) ∧
      ∀ q, Plain q → fileAt fs' q = fileAt fs q := by
  induction rest with
  | nil =>
    intro fs dir name good parent plain
    rw [Paths.cacheLeaf, cacheIsDirectory]
    cases found : fs (dir ++ [name]) with
    | none =>
      refine ⟨fs, dir, name, rfl, good, parent, ?_, fun _ _ => rfl⟩
      rw [leafPath, found]
    | some node =>
      obtain ⟨f, rfl⟩ | rfl := good.nodes _ _ found
      · refine ⟨fs, dir, name, rfl, good, parent, ?_, fun _ _ => rfl⟩
        rw [leafPath, found]
      · refine ⟨fs, dir ++ [name], valueName, ?_, good, found, ?_, fun _ _ => rfl⟩
        · simp only [Node.isDirectory, cacheOpenDirectory_eq found]
        · rw [leafPath, found]
  | cons next rest ih =>
    intro fs dir name good parent plain
    have split : dir ++ name :: next :: rest = dir ++ [name] ++ next :: rest := by simp
    have plainDir : Plain (dir ++ [name]) := by
      intro n mem
      refine plain n ?_
      rw [split]
      exact mem_append_left _ mem
    obtain ⟨made, ran, good', found, same⟩ := good.makePrefix parent plainDir pid sequence
    rw [split] at plain ⊢
    obtain ⟨fs', dir', name', walked, good'', parent', leaf, same'⟩ := ih good' found plain
    refine ⟨fs', dir', name', ?_, good'', parent', leaf, fun q plainQ => ?_⟩
    · rw [Paths.cacheLeaf, ran]
      simp only [cacheOpenDirectory_eq found]
      exact walked
    · rw [same' q plainQ, same q plainQ]

lemma Good.cacheFindLeaf (good : Good fs) {rest} : ∀ {dir : List Bytes} {name : Bytes},
    Paths.cacheFindLeaf fs dir name rest = (fs, .ok ((fileAt fs (dir ++ name :: rest)).bind fun _ =>
      some ((leafPath fs (dir ++ name :: rest)).dropLast,
        (leafPath fs (dir ++ name :: rest)).getLastD []))) := by
  induction rest with
  | nil =>
    intro dir name
    rw [Paths.cacheFindLeaf]
    cases found : fs (dir ++ [name]) with
    | none => simp [fileAt, found]
    | some node =>
      obtain ⟨f, rfl⟩ | rfl := good.nodes _ _ found
      · simp [fileAt, leafPath, found, findLast]
      · simp only [findLast, cacheOpenDirectory_eq found]
        cases value : fs (dir ++ [name] ++ [valueName]) with
        | none =>
          rw [fileAt, found]
          simp only [value]
          rfl
        | some node =>
          obtain ⟨-, f, file⟩ := good.reserved (dir ++ [name]) valueName reserved_valueName
            (by rw [value]; exact nofun)
          rw [value] at file
          cases file
          simp only [fileAt, leafPath, found, value]
          simp
  | cons next rest ih =>
    intro dir name
    have split : dir ++ name :: next :: rest = dir ++ [name] ++ next :: rest := by simp
    rw [Paths.cacheFindLeaf, split]
    have stop (h : ∀ own mode, fs (dir ++ [name]) ≠ some (.directory own mode)) :
        fileAt fs (dir ++ [name] ++ next :: rest) = none := by
      rw [fileAt, good.below_all h _ (cons_ne_nil _ _)]
    cases found : fs (dir ++ [name]) with
    | none =>
      rw [stop (by rw [found]; exact nofun)]
      rfl
    | some node =>
      obtain ⟨f, rfl⟩ | rfl := good.nodes _ _ found
      · rw [stop (by rw [found]; exact nofun)]
        rfl
      · simp only [cacheOpenDirectory_eq found]
        exact ih

lemma Good.setLeaf (good : Good fs) {e} (plain : Plain e) (o : Option F)
    (parent : fs dir = some (.directory true 0o700)) (leaf : dir ++ [name] = leafPath fs e)
    (free : ∀ own mode, fs (dir ++ [name]) ≠ some (.directory own mode)) :
    Good (update fs (dir ++ [name]) (o.map .file)) ∧
      fileAt (update fs (dir ++ [name]) (o.map .file)) e = o ∧
      ∀ q, Plain q → q ≠ e →
        fileAt (update fs (dir ++ [name]) (o.map .file)) q = fileAt fs q := by
  have shut : ∀ n, fs (dir ++ [name] ++ [n]) = none := good.closed.below free
  -- the leaf is the path itself, or the value of its directory
  have place : dir ++ [name] = e ∨
      (dir ++ [name] = e ++ [valueName] ∧ fs e = some (.directory true 0o700)) := by
    rw [leaf, leafPath]
    cases found : fs e with
    | none => exact .inl rfl
    | some node =>
      obtain ⟨f, rfl⟩ | rfl := good.nodes e node found
      · exact .inl rfl
      · exact .inr ⟨rfl, rfl⟩
  refine ⟨⟨?_, fun p n some => ?_, fun p node some => ?_, fun p n res some => ?_⟩, ?_,
    fun q plainQ away => ?_⟩
  · rw [update_of_ne (by simp)]
    exact good.root
  · exact good.closed.set ⟨_, _, parent⟩ (fun ⟨own, mode, found⟩ => absurd found (free own mode)) p
        n some
  · by_cases here : p = dir ++ [name]
    · subst here
      rw [update_self] at some
      obtain ⟨f, -, rfl⟩ := Option.map_eq_some_iff.1 some
      exact .inl ⟨f, rfl⟩
    · rw [update_of_ne here] at some
      exact good.nodes p node some
  · by_cases here : p ++ [n] = dir ++ [name]
    · rw [here, update_self] at some ⊢
      obtain ⟨f, same⟩ := Option.ne_none_iff_exists'.1 some
      obtain ⟨f, -, rfl⟩ := Option.map_eq_some_iff.1 same
      refine ⟨?_, f, same⟩
      obtain at_e | ⟨value, -⟩ := place
      · rw [← here] at at_e
        subst at_e
        exact absurd res (plain n (mem_append_right _ (mem_singleton_self _)))
      · rw [value] at here
        exact (append_singleton_inj here).2
    · rw [update_of_ne here] at some ⊢
      exact good.reserved p n res some
  · rw [fileAt]
    obtain at_e | ⟨value, directory⟩ := place
    · rw [at_e, update_self]
      rw [at_e] at shut
      cases o with
      | none | some f => rfl
    · rw [value, update_of_ne (append_ne_self e valueName).symm, directory, update_self]
      cases o with
      | none | some f => rfl
  · have leaf_q : q ≠ dir ++ [name] := by
      obtain at_e | ⟨value, -⟩ := place
      · rw [at_e]
        exact away
      · rw [value]
        exact plain_ne_value plainQ e
    have value_q : q ++ [valueName] ≠ dir ++ [name] := by
      obtain at_e | ⟨value, -⟩ := place
      · rw [at_e]
        exact (plain_ne_value plain q).symm
      · rw [value]
        intro same
        exact away (append_singleton_inj same).1
    rw [fileAt, fileAt, update_of_ne leaf_q, update_of_ne value_q]

end

section
variable {names : Names} {fs : Tree F} {m : Bytes → Option F} {keys : List Bytes}

structure Refines (names : Names) (keys : List Bytes) (fs : Tree F) (m : Bytes → Option F) :
    Prop where
  good : Good fs
  file : ∀ k ∈ keys, fileAt fs (encodedPath names k) = m k

lemma Refines.find (refines : Refines names keys fs m) {k} (mem : k ∈ keys) :
    find names fs k = (fs, .ok ((m k).bind fun _ =>
      some ((leafPath fs (encodedPath names k)).dropLast,
        (leafPath fs (encodedPath names k)).getLastD []))) := by
  obtain ⟨name, rest, path⟩ := encodedPath_cons names k
  have file := refines.file k mem
  rw [Paths.find, path] at *
  dsimp only
  rw [refines.good.cacheFindLeaf, nil_append, file]

lemma fileAt_leaf (fs : Tree F) (e : List Bytes) : fileAt fs e =
    match fs (leafPath fs e) with
    | some (.file f) => some f
    | _ => none := by
  rw [fileAt, leafPath]
  cases found : fs e with
  | none => simp only [found]
  | some node => cases node <;> simp only [found]

lemma Good.leaf_free (good : Good fs) (e : List Bytes) (own : Bool) (mode : Nat) :
    fs (leafPath fs e) ≠ some (.directory own mode) := by
  intro directory
  rw [leafPath] at directory
  split at directory
  · obtain ⟨-, f, file⟩ :=
      good.reserved e valueName reserved_valueName (by rw [directory]; exact nofun)
    rw [file] at directory
    cases directory
  · rename_i other
    exact other own mode directory

lemma Good.leaf_file (good : Good fs) {e} (nonempty : e ≠ []) {f} (file : fileAt fs e = some f) :
    (leafPath fs e).dropLast ++ [(leafPath fs e).getLastD []] = leafPath fs e ∧
      fs (leafPath fs e) = some (.file f) ∧
      fs (leafPath fs e).dropLast = some (.directory true 0o700) := by
  have split : ∀ p : List Bytes, p ≠ [] → p.dropLast ++ [p.getLastD []] = p := by
    intro p h
    obtain rfl | ⟨q, n, rfl⟩ := eq_nil_or_concat' p
    · exact absurd rfl h
    · simp
  have parent : ∀ p : List Bytes, p ≠ [] → fs p ≠ none →
      fs p.dropLast = some (.directory true 0o700) := by
    intro p h some
    rw [← split p h] at some
    obtain ⟨own, mode, found⟩ := good.closed _ _ some
    obtain ⟨f, same⟩ | same := good.nodes _ _ found
    · cases same
    · rw [found, same]
  have place : leafPath fs e ≠ [] ∧ fs (leafPath fs e) = some (.file f) := by
    rw [fileAt_leaf] at file
    refine ⟨?_, ?_⟩
    · rw [leafPath]
      split
      · simp
      · exact nonempty
    · cases found : fs (leafPath fs e) with
      | none =>
        rw [found] at file
        cases file
      | some node =>
        rw [found] at file
        cases node with
        | file g =>
          cases file
          rfl
        | symlink | directory own mode => cases file
  exact ⟨split _ place.1, place.2, parent _ place.1 (by rw [place.2]; exact nofun)⟩

lemma encodedPath_ne_nil (names : Names) (key : Bytes) : encodedPath names key ≠ [] := by
  obtain ⟨name, rest, path⟩ := encodedPath_cons names key
  rw [path]
  exact cons_ne_nil _ _

lemma Refines.foundFile (refines : Refines names keys fs m) {k} (mem : k ∈ keys) :
    Paths.foundFile names fs k = .ok (m k) := by
  rw [Paths.foundFile, refines.find mem]
  cases value : m k with
  | none => rfl
  | some f =>
    have file := refines.file k mem
    rw [value] at file
    obtain ⟨split, at_leaf, -⟩ := refines.good.leaf_file (encodedPath_ne_nil names k) file
    simp only [Option.bind_some, split, at_leaf]

lemma Refines.step (refines : Refines names keys fs m) (apart : NoCollisions names keys) {op}
    (mem : op.key ∈ keys) :
    ∃ fs', step names fs op = some fs' ∧ Refines names keys fs' (op.apply m) := by
  have others : ∀ k ∈ keys, k ≠ op.key → encodedPath names k ≠ encodedPath names op.key :=
    fun k hk other same => other (encodedPath_inj apart hk mem same)
  have plain := plain_encodedPath names op.key
  cases op with
  | find key =>
    refine ⟨fs, ?_, refines.good, refines.file⟩
    dsimp only [Op.key] at mem
    rw [Paths.step, refines.find mem]
  | store key f pid sequence =>
    dsimp only [Op.key] at mem others plain
    obtain ⟨name, rest, path⟩ := encodedPath_cons names key
    have file := refines.file key mem
    rw [path] at plain file
    obtain ⟨fs', dir, leaf, walked, good, parent, place, same⟩ :=
      refines.good.cacheLeaf pid sequence refines.good.root plain
    rw [nil_append] at place
    have kept : ∀ k ∈ keys, fileAt fs' (encodedPath names k) = m k := fun k hk => by
      rw [same _ (plain_encodedPath names k), refines.file k hk]
    have value := fileAt_leaf fs' (name :: rest)
    rw [same _ plain, file, ← place] at value
    rw [Paths.step, store, path]
    simp only [walked]
    cases found : fs' (dir ++ [leaf]) with
    | none =>
      obtain ⟨good', new, stays⟩ :=
        good.setLeaf plain (some f) parent place (by rw [found]; exact nofun)
      refine ⟨_, rfl, good', fun k hk => ?_⟩
      rw [found] at value
      rw [Op.apply]
      split
      · rename_i here
        rw [here, path, value]
        exact new
      · rename_i other
        rw [← path] at stays
        exact (stays _ (plain_encodedPath names k) (others k hk other)).trans (kept k hk)
    | some node =>
      rw [found] at value
      obtain ⟨g, rfl⟩ | rfl := good.nodes _ _ found
      · refine ⟨_, rfl, good, fun k hk => ?_⟩
        rw [Op.apply, kept k hk]
        split
        · rename_i here
          rw [here, value]
          rfl
        · rfl
      · rw [place] at found
        exact absurd found (good.leaf_free _ _ _)
  | remove key =>
    dsimp only [Op.key] at mem others plain
    rw [Paths.step, remove, refines.find mem]
    cases value : m key with
    | none =>
      refine ⟨fs, rfl, refines.good, fun k hk => ?_⟩
      rw [Op.apply, refines.file k hk]
      split
      · rename_i here
        rw [here, value]
      · rfl
    | some f =>
      have file := refines.file key mem
      rw [value] at file
      obtain ⟨split, at_leaf, parent⟩ := refines.good.leaf_file (encodedPath_ne_nil names key) file
      have free : ∀ own mode, fs ((leafPath fs (encodedPath names key)).dropLast ++
          [(leafPath fs (encodedPath names key)).getLastD []]) ≠ some (.directory own mode) := by
        rw [split, at_leaf]
        exact nofun
      obtain ⟨good', gone, stays⟩ := refines.good.setLeaf plain none parent split free
      have unlinked : unlinkat fs (leafPath fs (encodedPath names key)).dropLast
          ((leafPath fs (encodedPath names key)).getLastD []) = .ok (update fs
            ((leafPath fs (encodedPath names key)).dropLast ++
              [(leafPath fs (encodedPath names key)).getLastD []]) none) := by
        rw [unlinkat, split, at_leaf]
      simp only [Option.bind_some, unlinked]
      refine ⟨_, rfl, good', fun k hk => ?_⟩
      rw [Op.apply]
      by_cases here : k = key
      · rw [if_pos here, here]
        exact gone
      · rw [if_neg here]
        exact (stays _ (plain_encodedPath names k) (others k hk here)).trans (refines.file k hk)

end

lemma good_emptyTree : Good (emptyTree : Tree F) := by
  have none : ∀ p : List Bytes, p ≠ [] → (emptyTree : Tree F) p = none := fun p h => if_neg h
  refine ⟨rfl, fun p name some => ?_, fun p node some => ?_, fun p name _ some => ?_⟩
  · exact absurd (none _ (by simp)) some
  · by_cases root : p = []
    · subst root
      cases some
      exact .inr rfl
    · rw [none p root] at some
      cases some
  · exact absurd (none _ (by simp)) some

/-- Every sequence of operations runs through on the tree, and then a key has a file in it exactly
if it has one in the map: the same. The hash is asked only to tell apart the components of these
keys. -/
theorem tree_refines_map (names : Names) (ops : List (Op F)) (k : Bytes)
    (apart : NoCollisions names (k :: ops.map Op.key)) :
    ∃ fs, run (step names) emptyTree ops = some fs ∧
      foundFile names fs k = .ok (ops.foldl Op.apply (fun _ => none) k) := by
  have runs : ∀ (ops : List (Op F)) (fs : Tree F) (m : Bytes → Option F) (keys : List Bytes),
      NoCollisions names keys → (∀ op ∈ ops, op.key ∈ keys) → Refines names keys fs m →
      ∃ fs', run (step names) fs ops = some fs' ∧
        Refines names keys fs' (ops.foldl Op.apply m) := by
    intro ops
    induction ops with
    | nil => exact fun fs m keys _ _ refines => ⟨fs, rfl, refines⟩
    | cons op ops ih =>
      intro fs m keys apart mem refines
      obtain ⟨t, stepped, refines'⟩ := refines.step apart (mem op mem_cons_self)
      obtain ⟨fs', ran, last⟩ :=
        ih t _ keys apart (fun o h => mem o (mem_cons_of_mem _ h)) refines'
      refine ⟨fs', ?_, last⟩
      rw [run, stepped]
      exact ran
  have first : Refines names (k :: ops.map Op.key) (emptyTree : Tree F) fun _ => none := by
    refine ⟨good_emptyTree, fun k _ => ?_⟩
    rw [fileAt, emptyTree, if_neg (encodedPath_ne_nil names k)]
  obtain ⟨fs, ran, refines⟩ := runs ops emptyTree _ _ apart
    (fun op mem => mem_cons_of_mem _ (mem_map_of_mem mem)) first
  exact ⟨fs, ran, refines.foundFile mem_cons_self⟩

theorem tree_refines_map_promotion : ∃ fs, run (step someNames) emptyTree
        [.store (ascii "a") 1 0 0, .store (ascii "a/..") 2 0 0, .store (ascii "a/") 3 0 0,
          .remove (ascii "a/..")] = some fs ∧
      foundFile someNames fs (ascii "a") = .ok (some (1 : Nat)) := by
  refine tree_refines_map someNames _ _ ?_
  unfold NoCollisions Collisionless
  decide +kernel

end Ngs3fs.Paths
