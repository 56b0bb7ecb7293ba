import Ngs3fs.Paths.Walker

/-!
# The walker against `cache_leaf` and `cache_find_leaf`

`Agrees` says that a synchronous call and a walk come to the same end and leave the same tree.
`Alike` is the condition on the tree for it. They come apart in three ways: `cache_open_directory`
refuses a directory of another user and sets the mode of its own to `0700`, and the walker does
neither; the walker in create mode refuses a value that is not a regular file, and `cache_leaf`
does not look at it; and a promotion overwrites what an earlier one has left under its temporary
name, of which the two have one each. -/

namespace Ngs3fs.Paths

open FileTree List Function

variable {F : Type}

/-- `cache_leaf` in create mode, `cache_find_leaf` in lookup mode. -/
def syncWalk (create : Bool) (temporary : Bytes) (fs : Tree F) (dir : List Bytes) (name : Bytes)
    (rest : List Bytes) : Tree F × Except Error (Option Leaf) :=
  if create then
    match cacheLeaf temporary fs dir name rest with
    | (fs, .ok leaf) => (fs, .ok (some leaf))
    | (fs, .error e) => (fs, .error e)
  else cacheFindLeaf fs dir name rest

def Agrees (sync : Tree F × Except Error (Option Leaf)) (async : Tree F × Completion) : Prop :=
  sync.1 = async.1 ∧
    match sync.2, async.2 with
    | .error _, .failed _ => True
    | .ok none, .missing => True
    | .ok none, .finished found _ _ _ => found = false
    | .ok (some (dir, name)), .finished found parent _ leaf =>
      parent = dir ∧ leaf = name ∧ found = (sync.1 (dir ++ [name])).isSome
    | _, _ => False

def Regular (fs : Tree F) (p : List Bytes) : Prop :=
  ∀ node, fs (p ++ [valueName]) = some node → node.isFile

def Blocked (create : Bool) (fs : Tree F) (dir : List Bytes) (name : Bytes) : List Bytes → Prop
  | [] =>
    match fs (dir ++ [name]) with
    | some .symlink => True
    | some (.directory _ _) => ¬Regular fs (dir ++ [name])
    | _ => False
  | next :: rest =>
    match fs (dir ++ [name]) with
    | some .symlink => create = true
    | some (.directory _ _) => Blocked create fs (dir ++ [name]) next rest
    | _ => False

/-- The directories on the path belong to the mounting user and have the mode `0700`, the value at
its end is a regular file, and nothing is left of earlier promotions. A directory of another user
does no harm if the walk is refused later. -/
def Alike (create : Bool) (temporary temporary' : Bytes) (fs : Tree F) (dir : List Bytes)
    (name : Bytes) :
    List Bytes → Prop
  | [] =>
    match fs (dir ++ [name]) with
    | some (.directory true mode) => mode = 0o700 ∧ (create = true → Regular fs (dir ++ [name]))
    | some (.directory false _) => ¬Regular fs (dir ++ [name])
    | _ => True
  | next :: rest =>
    match fs (dir ++ [name]) with
    | some (.directory true mode) =>
      mode = 0o700 ∧ Alike create temporary temporary' fs (dir ++ [name]) next rest
    | some (.directory false _) => Blocked create fs (dir ++ [name]) next rest
    | some (.file _) => create = true → temporary = temporary' ∨
        (fs (dir ++ [temporary]) = none ∧ fs (dir ++ [temporary']) = none)
    | _ => True

def Inside (dir : List Bytes) (fs fs' : Tree F) : Prop :=
  ∀ q, (∀ n r, q ≠ dir ++ n :: r) → fs' q = fs q

section
variable {dir : List Bytes} {name : Bytes} {fs fs' fs'' : Tree F} {f : F}

lemma Inside.refl (dir : List Bytes) (fs : Tree F) : Inside dir fs fs := fun _ _ => rfl

lemma Inside.trans (first : Inside dir fs fs') (second : Inside dir fs' fs'') :
    Inside dir fs fs'' :=
  fun q away => (second q away).trans (first q away)

lemma Inside.up (inside : Inside (dir ++ [name]) fs fs') : Inside dir fs fs' := by
  intro q away
  refine inside q fun n r same => away name (n :: r) ?_
  rw [same, append_assoc, singleton_append]

lemma Inside.update (dir : List Bytes) (name : Bytes) (fs : Tree F) (node : Option (Node F)) :
    Inside dir fs (update fs (dir ++ [name]) node) :=
  fun _ away => update_of_ne (away name []) _ _

lemma Inside.promoted (dir : List Bytes) (name temporary : Bytes) (fs : Tree F) (f : F) :
    Inside dir fs (promotedVia fs dir name temporary f) :=
  ((Inside.update dir temporary fs _).trans (Inside.update dir name _ _)).trans
    (Inside.update (dir ++ [name]) valueName _ _).up

lemma Inside.here (inside : Inside dir fs fs') : fs' dir = fs dir := by
  refine inside dir fun n r same => ?_
  have := congrArg length same
  rw [length_append, length_cons] at this
  omega

lemma Inside.beside (inside : Inside (dir ++ [name]) fs fs') {other} (apart : other ≠ name) :
    fs' (dir ++ [other]) = fs (dir ++ [other]) := by
  refine inside _ fun n r same => apart ?_
  rw [append_assoc, append_cancel_left_eq] at same
  exact (cons_eq_cons.1 same).1

end

section
variable {dir : List Bytes} {name temporary : Bytes} {fs : Tree F} {mode : Nat}

lemma cacheOpenDirectory_own (found : fs (dir ++ [name]) = some (.directory true mode)) :
    cacheOpenDirectory fs dir name =
      (update fs (dir ++ [name]) (some (.directory true 0o700)), .ok (dir ++ [name])) := by
  by_cases secure : mode = 0o700
  · subst secure
    rw [cacheOpenDirectory_eq found, ← found, update_eq_self]
  · rw [cacheOpenDirectory, openDirectory, found]
    simp only [secureDirectory, found, Bool.not_true, Bool.false_eq_true, if_false, ne_eq, secure,
      not_false_eq_true, if_true]

lemma cacheOpenDirectory_foreign (found : fs (dir ++ [name]) = some (.directory false mode)) :
    cacheOpenDirectory fs dir name =
      (fs, .error (.runtime "cache directory is not owned by the mounting user")) := by
  rw [cacheOpenDirectory, openDirectory, found]
  simp only [secureDirectory, found, Bool.not_false, if_true]

lemma walkValue_tree (fs : Tree F) (p : List Bytes) : (walkValue fs p).1 = fs := by
  rw [walkValue]
  split <;> rfl

variable {rest : List Bytes}

lemma inside_walk (create : Bool) (temporary : Bytes) : ∀ (fs : Tree F)
    (dir : List Bytes) (owned : Bool) (name : Bytes),
    Inside dir fs (walk create temporary fs dir owned name rest).1 := by
  induction rest with
  | nil =>
    intro fs dir owned name
    rw [walk]
    split
    · exact .refl dir fs
    · exact .refl dir fs
    · exact .refl dir fs
    · rw [walkValue_tree]
      exact .refl dir fs
  | cons next rest ih =>
    intro fs dir owned name
    rw [walk]
    split
    · exact (ih fs _ _ _).up
    · cases create <;> exact .refl dir fs
    · cases create with
      | false => exact .refl dir fs
      | true => exact (Inside.promoted dir name temporary fs _).trans (ih _ _ _ _).up
    · cases create with
      | false => exact .refl dir fs
      | true => exact (Inside.update dir name fs _).trans (ih _ _ _ _).up

lemma makePrefix_walkable (walkable : Walkable temporary fs) (apart : name ≠ temporary) :
    makePrefix fs dir name temporary =
      match fs (dir ++ [name]) with
      | none => (update fs (dir ++ [name]) (some (.directory true 0o700)), .ok ())
      | some (.file f) => (promotedVia fs dir name temporary f, .ok ())
      | some (.directory _ _) => (fs, .ok ())
      | some .symlink => (fs, .error (.system .eloop "non-directory inside cache tree")) := by
  rw [makePrefix]
  cases found : fs (dir ++ [name]) with
  | none => simp only [mkdirIfMissing, mkdirat, found]
  | some node =>
    cases node with
    | file f => exact cachePromoteFile_eq walkable.closed found apart (walkable.free dir)
    | directory own mode | symlink => rfl

lemma cacheLeaf_cons (walkable : Walkable temporary fs) (apart : name ≠ temporary) (next : Bytes)
    (rest : List Bytes) :
    cacheLeaf temporary fs dir name (next :: rest) =
      match fs (dir ++ [name]) with
      | none => cacheLeaf temporary
          (update fs (dir ++ [name]) (some (.directory true 0o700)))
          (dir ++ [name]) next rest
      | some (.file f) =>
        cacheLeaf temporary (promotedVia fs dir name temporary f) (dir ++ [name]) next rest
      | some (.directory true _) =>
        cacheLeaf temporary (update fs (dir ++ [name]) (some (.directory true 0o700)))
          (dir ++ [name]) next rest
      | some (.directory false _) =>
        (fs, .error (.runtime "cache directory is not owned by the mounting user"))
      | some .symlink => (fs, .error (.system .eloop "non-directory inside cache tree")) := by
  rw [cacheLeaf, makePrefix_walkable walkable apart]
  cases found : fs (dir ++ [name]) with
  | none => simp only [cacheOpenDirectory_eq (update_self ..)]
  | some node =>
    cases node with
    | file f => simp only [cacheOpenDirectory_eq (promotedVia_here ..)]
    | symlink => rfl
    | directory own mode =>
      cases own with
      | false => simp only [cacheOpenDirectory_foreign found]
      | true => simp only [cacheOpenDirectory_own found]

lemma inside_cacheLeaf : ∀ {fs : Tree F} {dir : List Bytes} {name : Bytes},
    Ready temporary fs dir (name :: rest) →
        Inside dir fs (cacheLeaf temporary fs dir name rest).1 := by
  induction rest with
  | nil =>
    intro fs dir name ready
    rw [cacheLeaf, cacheIsDirectory]
    cases found : fs (dir ++ [name]) with
    | none => exact .refl dir fs
    | some node =>
      cases node with
      | file f | symlink => exact .refl dir fs
      | directory own mode =>
        cases own with
        | false =>
          simp only [Node.isDirectory, cacheOpenDirectory_foreign found]
          exact .refl dir fs
        | true =>
          simp only [Node.isDirectory, cacheOpenDirectory_own found]
          exact .update dir name fs _
  | cons next rest ih =>
    intro fs dir name ready
    have made := ih ready.mkdir
    rw [cacheLeaf_cons ready.walkable ready.name_apart]
    cases found : fs (dir ++ [name]) with
    | none => exact (Inside.update dir name fs _).trans made.up
    | some node =>
      cases node with
      | file f =>
        exact (Inside.promoted dir name temporary fs f).trans
          (ih (ready.promoted found (ready.walkable.free dir))).up
      | symlink => exact .refl dir fs
      | directory own mode =>
        cases own with
        | false => exact .refl dir fs
        | true => exact (Inside.update dir name fs _).trans made.up

lemma cacheFindLeaf_cons (fs : Tree F) (dir : List Bytes) (name next : Bytes) (rest : List Bytes) :
    cacheFindLeaf fs dir name (next :: rest) =
      match fs (dir ++ [name]) with
      | some (.directory true _) =>
        cacheFindLeaf (update fs (dir ++ [name]) (some (.directory true 0o700)))
          (dir ++ [name]) next rest
      | some (.directory false _) =>
        (fs, .error (.runtime "cache directory is not owned by the mounting user"))
      | _ => (fs, .ok none) := by
  rw [cacheFindLeaf]
  cases found : fs (dir ++ [name]) with
  | none => rfl
  | some node =>
    cases node with
    | file f | symlink => rfl
    | directory own mode =>
      cases own with
      | false => simp only [cacheOpenDirectory_foreign found]
      | true => simp only [cacheOpenDirectory_own found]

lemma inside_cacheFindLeaf : ∀ (fs : Tree F) (dir : List Bytes) (name : Bytes),
    Inside dir fs (cacheFindLeaf fs dir name rest).1 := by
  induction rest with
  | nil =>
    intro fs dir name
    rw [cacheFindLeaf]
    cases found : fs (dir ++ [name]) with
    | none => exact .refl dir fs
    | some node =>
      cases node with
      | file f | symlink => exact .refl dir fs
      | directory own mode =>
        simp only [findLast]
        cases own with
        | false =>
          simp only [cacheOpenDirectory_foreign found]
          exact .refl dir fs
        | true =>
          simp only [cacheOpenDirectory_own found]
          split <;> exact .update dir name fs _
  | cons next rest ih =>
    intro fs dir name
    rw [cacheFindLeaf_cons]
    split
    · exact (Inside.update dir name fs _).trans (ih _ _ _).up
    all_goals exact .refl dir fs

end

def Fails (out : Tree F × Completion) : Prop := ∃ e, out.2 = .failed e

section
variable {create : Bool} {temporary temporary' : Bytes} {fs : Tree F} {dir : List Bytes}
    {name : Bytes}
  {mode : Nat}

lemma fails_walkValue (fs : Tree F) (p : List Bytes) : Fails (walkValue fs p) ↔ ¬Regular fs p := by
  rw [walkValue, Regular]
  cases found : fs (p ++ [valueName]) with
  | none => simp [Fails]
  | some node => cases node <;> simp [Fails, Node.isFile]

lemma mkdir_fresh (closed : Closed fs) (absent : fs (dir ++ [name]) = none) (next : Bytes) :
    update fs (dir ++ [name]) (some (.directory true 0o700)) (dir ++ [name] ++ [next]) =
      none := by
  rw [update_of_ne (append_ne_self _ _)]
  exact closed.below (by rw [absent]; exact nofun) next

lemma promoted_fresh {f} (closed : Closed fs) (file : fs (dir ++ [name]) = some (.file f))
    (via : Bytes) {next} (plain : next ≠ valueName) :
    promotedVia fs dir name via f (dir ++ [name] ++ [next]) = none := by
  unfold promotedVia
  rw [update_of_ne fun same => plain (append_singleton_inj same).2,
    update_of_ne (append_ne_self _ _)]
  by_cases here : dir ++ [name] ++ [next] = dir ++ [via]
  · rw [here, update_self]
  · rw [update_of_ne here]
    exact closed.below (by rw [file]; exact nofun) next

lemma not_blocked_of_none (absent : fs (dir ++ [name]) = none) (rest : List Bytes) :
    ¬Blocked create fs dir name rest := by
  cases rest <;> simp only [Blocked, absent, not_false_eq_true]

variable {rest : List Bytes}

lemma fails_walk :
    ∀ {fs : Tree F} {dir : List Bytes} {name : Bytes} (owned : Bool),
    Ready temporary fs dir (name :: rest) →
    (Fails (walk create temporary fs dir owned name rest) ↔ Blocked create fs dir name rest) := by
  induction rest with
  | nil =>
    intro fs dir name owned ready
    rw [walk, Blocked]
    cases found : fs (dir ++ [name]) with
    | none => simp [Fails]
    | some node =>
      cases node with
      | file f | symlink => simp [Fails]
      | directory own mode => exact fails_walkValue fs _
  | cons next rest ih =>
    intro fs dir name owned ready
    have closed := ready.walkable.closed
    rw [walk, Blocked]
    cases found : fs (dir ++ [name]) with
    | none =>
      cases create with
      | false => simp [Fails]
      | true =>
        refine (ih true ready.mkdir).trans (iff_of_false ?_ not_false)
        exact not_blocked_of_none (mkdir_fresh closed found next) rest
    | some node =>
      cases node with
      | symlink => cases create <;> simp [Fails]
      | directory own mode => exact ih true (ready.enter found)
      | file f =>
        cases create with
        | false => simp [Fails]
        | true =>
          refine (ih true (ready.promoted found (ready.walkable.free dir))).trans
            (iff_of_false ?_ not_false)
          exact not_blocked_of_none (promoted_fresh closed found _
            (ready.plain next (mem_cons_of_mem _ mem_cons_self))) rest

lemma walk_tree_of_blocked : ∀ {dir : List Bytes} {name : Bytes} {owned : Bool},
    Blocked create fs dir name rest → (walk create temporary fs dir owned name rest).1 = fs := by
  induction rest with
  | nil =>
    intro dir name owned blocked
    rw [walk]
    split
    · rfl
    · rfl
    · rfl
    · exact walkValue_tree fs _
  | cons next rest ih =>
    intro dir name owned blocked
    rw [Blocked] at blocked
    rw [walk]
    cases found : fs (dir ++ [name]) with
    | none =>
      rw [found] at blocked
      exact blocked.elim
    | some node =>
      rw [found] at blocked
      cases node with
      | file f => exact blocked.elim
      | symlink => cases create <;> rfl
      | directory own mode => exact ih blocked

lemma agrees_error (e : Error) (out : Tree F × Completion) :
    Agrees (fs, .error e) out ↔ out.1 = fs ∧ Fails out := by
  obtain ⟨tree, completion⟩ := out
  cases completion <;> simp [Agrees, Fails, eq_comm]

lemma agrees_foreign (e : Error) (owned : Bool) (ready : Ready temporary' fs dir (name :: rest)) :
    Agrees (fs, .error e) (walk create temporary' fs dir owned name rest) ↔
      Blocked create fs dir name rest := by
  rw [agrees_error, fails_walk owned ready]
  exact ⟨And.right, fun blocked => ⟨walk_tree_of_blocked blocked, blocked⟩⟩

lemma not_agrees_of_ne {sync} {out : Tree F × Completion}
    {q} (differ : sync.1 q ≠ out.1 q) : ¬Agrees sync out :=
  fun agrees => differ (congrFun agrees.1 q)

lemma not_agrees_of_mode {sync out}
    {p} (found : fs p = some (.directory true mode)) (loose : mode ≠ 0o700)
    (set : Inside p (update fs p (some (.directory true 0o700))) sync.1)
    (left : Inside p fs out.1) : ¬Agrees sync out := by
  refine not_agrees_of_ne (q := p) ?_
  rw [set.here, left.here, update_self, found]
  intro same
  cases same
  exact loose rfl

lemma alike_of_none (absent : fs (dir ++ [name]) = none) (rest : List Bytes) :
    Alike create temporary temporary' fs dir name rest := by
  cases rest <;> simp only [Alike, absent]

lemma agrees_value (fs : Tree F) (p : List Bytes) :
    Agrees (fs, .ok (some (p, valueName))) (walkValue fs p) ↔ Regular fs p := by
  rw [walkValue, Regular]
  cases found : fs (p ++ [valueName]) with
  | none => simp [Agrees, found]
  | some node => cases node <;> simp [Agrees, found, Node.isFile]

lemma agrees_leaf (owned : Bool) (ready : Ready temporary' fs dir [name]) :
    Agrees (syncWalk true temporary fs dir name []) (walk true temporary' fs dir owned name []) ↔
      Alike true temporary temporary' fs dir name [] := by
  rw [syncWalk, if_pos rfl, cacheLeaf, cacheIsDirectory, Alike]
  cases found : fs (dir ++ [name]) with
  | none => simp [Agrees, walk, found]
  | some node =>
    cases node with
    | file f => simp [Agrees, walk, found, Node.isDirectory]
    | symlink => simp [Agrees, walk, found]
    | directory own mode =>
      cases own with
      | false =>
        simp only [cacheOpenDirectory_foreign found]
        refine (agrees_foreign _ owned ready).trans ?_
        simp only [Blocked, found]
      | true =>
        simp only [cacheOpenDirectory_own found, true_implies]
        by_cases secure : mode = 0o700
        · subst secure
          rw [← found, update_eq_self, walk, found]
          simp only [true_and]
          exact agrees_value fs _
        · refine iff_of_false (not_agrees_of_mode found secure (.refl _ _) ?_) fun h => secure h.1
          rw [walk, found]
          simp only [walkValue_tree]
          exact .refl _ _

lemma syncWalk_of_eq {fs' dir' rest' name'}
    (same : cacheLeaf temporary fs dir name rest = cacheLeaf temporary fs' dir' name' rest') :
    syncWalk true temporary fs dir name rest = syncWalk true temporary fs' dir' name' rest' := by
  rw [syncWalk, syncWalk, if_pos rfl, if_pos rfl, same]

lemma syncWalk_tree (fs : Tree F) (dir : List Bytes) (name : Bytes) (rest : List Bytes) :
    (syncWalk true temporary fs dir name rest).1 = (cacheLeaf temporary fs dir name rest).1 := by
  rw [syncWalk, if_pos rfl]
  split <;> simp only [*]

lemma promotedVia_eq_iff {f tree tree'} (apart : name ≠ temporary) (apart' : name ≠ temporary')
    (inside : Inside (dir ++ [name]) (promotedVia fs dir name temporary f) tree)
    (inside' : Inside (dir ++ [name]) (promotedVia fs dir name temporary' f) tree')
    (same : tree = tree') :
    temporary = temporary' ∨
        (fs (dir ++ [temporary]) = none ∧ fs (dir ++ [temporary']) = none) := by
  have away : ∀ {via other : Bytes}, name ≠ other → promotedVia fs dir name via f (dir ++ [other]) =
      update fs (dir ++ [via]) none (dir ++ [other]) := by
    intro via other apart
    have deeper : dir ++ [other] ≠ dir ++ [name] ++ [valueName] := by
      intro same
      have := congrArg length same
      simp at this
    rw [promotedVia, update_of_ne deeper,
      update_of_ne fun same => apart (append_singleton_inj same).2.symm]
  by_cases one : temporary = temporary'
  · exact .inl one
  · have differ : dir ++ [temporary] ≠ dir ++ [temporary'] := fun same =>
        one (append_singleton_inj same).2
    have first := inside.beside apart.symm
    have first' := inside'.beside apart.symm
    have second := inside.beside apart'.symm
    have second' := inside'.beside apart'.symm
    rw [away apart, update_self] at first
    rw [away apart, update_of_ne differ] at first'
    rw [away apart', update_of_ne differ.symm] at second
    rw [away apart', update_self] at second'
    exact .inr ⟨by rw [← first', ← same, first], by rw [← second, same, second']⟩

lemma agrees_create : ∀ {fs : Tree F} {dir : List Bytes} {name : Bytes}
    (owned : Bool), Ready temporary fs dir (name :: rest) → Ready temporary' fs dir (name :: rest) →
    (Agrees (syncWalk true temporary fs dir name rest)
    (walk true temporary' fs dir owned name rest) ↔
      Alike true temporary temporary' fs dir name rest) := by
  induction rest with
  | nil =>
    intro fs dir name owned ready ready'
    exact agrees_leaf owned ready'
  | cons next rest ih =>
    intro fs dir name owned ready ready'
    have closed := ready.walkable.closed
    have step : cacheLeaf temporary fs dir name (next :: rest) = _ :=
      cacheLeaf_cons ready.walkable ready.name_apart next rest
    rw [walk, Alike]
    cases found : fs (dir ++ [name]) with
    | none =>
      rw [found] at step
      rw [syncWalk_of_eq step]
      refine (ih true ready.mkdir ready'.mkdir).trans (iff_of_true ?_ trivial)
      exact alike_of_none (mkdir_fresh closed found next) rest
    | some node =>
      rw [found] at step
      cases node with
      | symlink =>
        simp only [syncWalk, step, if_true]
        exact iff_of_true ⟨rfl, trivial⟩ trivial
      | directory own mode =>
        cases own with
        | false =>
          simp only [syncWalk, step, if_true]
          exact agrees_foreign _ true (ready'.enter found)
        | true =>
          rw [syncWalk_of_eq step]
          by_cases secure : mode = 0o700
          · subst secure
            rw [← found, update_eq_self, found]
            refine (ih true (ready.enter found) (ready'.enter found)).trans ?_
            simp only [true_and]
          · refine iff_of_false (not_agrees_of_mode found secure ?_ (inside_walk _ _ _ _ _ _))
                fun h => secure h.1
            rw [syncWalk_tree]
            exact inside_cacheLeaf ready.mkdir
      | file f =>
        have unused := ready.walkable.free dir
        have unused' := ready'.walkable.free dir
        rw [syncWalk_of_eq step]
        refine ⟨fun agrees _ => ?_, fun alike => ?_⟩
        · refine promotedVia_eq_iff ready.name_apart ready'.name_apart ?_
              (inside_walk _ _ _ _ _ _) agrees.1
          rw [syncWalk_tree]
          exact inside_cacheLeaf (ready.promoted found unused)
        · have same : promotedVia fs dir name temporary f = promotedVia fs dir name
              temporary' f := by
            obtain rfl | ⟨absent, absent'⟩ := alike rfl
            · rfl
            · have untouched : update fs (dir ++ [temporary]) none = fs :=
                update_eq_self_iff.2 absent.symm
              have untouched' : update fs (dir ++ [temporary']) none = fs :=
                update_eq_self_iff.2 absent'.symm
              rw [promotedVia, promotedVia, untouched, untouched']
          rw [same]
          refine (ih true (ready.promoted found unused') (ready'.promoted found unused')).2 ?_
          exact alike_of_none (promoted_fresh closed found _
            (ready.plain next (mem_cons_of_mem _ mem_cons_self))) rest

lemma agrees_findLast (owned : Bool) (ready : Ready temporary' fs dir [name]) :
    Agrees (cacheFindLeaf fs dir name []) (walk false temporary' fs dir owned name []) ↔
      Alike false temporary temporary' fs dir name [] := by
  rw [cacheFindLeaf, Alike]
  cases found : fs (dir ++ [name]) with
  | none => simp [Agrees, walk, found]
  | some node =>
    cases node with
    | file f | symlink => simp [Agrees, walk, found, findLast]
    | directory own mode =>
      simp only [findLast]
      cases own with
      | false =>
        simp only [cacheOpenDirectory_foreign found]
        refine (agrees_foreign _ owned ready).trans ?_
        simp only [Blocked, found]
      | true =>
        simp only [cacheOpenDirectory_own found, Bool.false_eq_true, false_implies, and_true]
        by_cases secure : mode = 0o700
        · subst secure
          rw [← found, update_eq_self, walk, found, walkValue]
          refine iff_of_true ?_ rfl
          cases value : fs (dir ++ [name] ++ [valueName]) with
          | none => exact ⟨rfl, rfl⟩
          | some node =>
            cases node with
            | file f => exact ⟨rfl, rfl, rfl, (congrArg Option.isSome value).symm⟩
            | symlink | directory own mode => exact ⟨rfl, trivial⟩
        · refine iff_of_false (not_agrees_of_mode found secure ?_ ?_) secure
          · split <;> exact .refl _ _
          · rw [walk, found]
            simp only [walkValue_tree]
            exact .refl _ _

lemma agrees_find : ∀ {fs : Tree F} {dir : List Bytes} {name : Bytes}
    (owned : Bool), Ready temporary' fs dir (name :: rest) →
    (Agrees (cacheFindLeaf fs dir name rest) (walk false temporary' fs dir owned name rest) ↔
      Alike false temporary temporary' fs dir name rest) := by
  induction rest with
  | nil =>
    intro fs dir name owned ready
    exact agrees_findLast owned ready
  | cons next rest ih =>
    intro fs dir name owned ready
    have step := cacheFindLeaf_cons fs dir name next rest
    rw [walk, Alike]
    cases found : fs (dir ++ [name]) with
    | none =>
      rw [found] at step
      rw [step]
      exact iff_of_true ⟨rfl, trivial⟩ trivial
    | some node =>
      rw [found] at step
      rw [step]
      cases node with
      | symlink => exact iff_of_true ⟨rfl, trivial⟩ trivial
      | file f => exact iff_of_true ⟨rfl, trivial⟩ Bool.noConfusion
      | directory own mode =>
        cases own with
        | false => exact agrees_foreign _ true (ready.enter found)
        | true =>
          by_cases secure : mode = 0o700
          · subst secure
            simp only [true_and]
            rw [← found, update_eq_self]
            exact ih true (ready.enter found)
          · exact iff_of_false (not_agrees_of_mode found secure (inside_cacheFindLeaf _ _ _)
              (inside_walk _ _ _ _ _ _)) fun h => secure h.1

end

def syncLeaf (names : Names) (create : Bool) (temporary : Bytes) (fs : Tree F) (key : Bytes) :
    Tree F × Except Error (Option Leaf) :=
  match encodedPath names key with
  | [] => (fs, .error (.runtime "empty cache key"))
  | name :: rest => syncWalk create temporary fs [] name rest

def WalkerReaches (names : Names) (create : Bool) (temporary : Bytes) (fs : Tree F) (key : Bytes)
    (out : Tree F × Completion) : Prop :=
  let w := startWalk (encodedPath names key) create temporary
  Reaches fs w (.statx w.current w.component) out

def AlikeFor (names : Names) (create : Bool) (temporary temporary' : Bytes) (fs : Tree F)
    (key : Bytes) :
    Prop :=
  match encodedPath names key with
  | [] => True
  | name :: rest => Alike create temporary temporary' fs [] name rest

lemma ready_of_key (names : Names) {key name rest} (path : encodedPath names key = name :: rest)
    {fs : Tree F} {pid sequence} (root : ∃ own mode, fs [] = some (.directory own mode))
    (walkable : Walkable (temporaryName pid sequence) fs) :
    Ready (temporaryName pid sequence) fs [] (name :: rest) := by
  have plain := plain_encodedPath names key
  rw [path] at plain
  refine ⟨walkable, root, fun n mem => ?_, fun n mem => ?_⟩
  · rintro rfl
    exact plain _ mem (reserved_temporaryName pid sequence)
  · rintro rfl
    exact plain _ mem reserved_valueName

/-- The walker comes to an end for every tree and key, and it agrees with the synchronous function
exactly if the tree is alike to both. -/
theorem walker_agrees_iff (names : Names) (create : Bool) (key : Bytes)
    (pid sequence sequence' : Nat)
    (fs : Tree F) (root : ∃ own mode, fs [] = some (.directory own mode))
    (walkable : Walkable (temporaryName pid sequence) fs)
    (walkable' : Walkable (temporaryName pid sequence') fs) :
    ∃ out, WalkerReaches names create (temporaryName pid sequence') fs key out ∧
      (Agrees (syncLeaf names create (temporaryName pid sequence) fs key) out ↔
        AlikeFor names create (temporaryName pid sequence) (temporaryName pid sequence')
            fs key) := by
  obtain ⟨name, rest, path⟩ := encodedPath_cons names key
  have ready := ready_of_key names path root walkable
  have ready' := ready_of_key names path root walkable'
  refine ⟨walk create (temporaryName pid sequence') fs [] false name rest, ?_, ?_⟩
  · have here : (encodedPath names key).drop 0 = name :: rest := path
    show Reaches fs (atComponent (encodedPath names key) create _ 0 [] false)
      (.statx [] ((encodedPath names key).getD 0 [])) _
    rw [getD_of_drop here]
    exact reaches_walk here ready'
  · rw [syncLeaf, AlikeFor, path]
    cases create with
    | true => exact agrees_create false ready ready'
    | false => exact agrees_find false ready'

def linkTree : Tree Nat := fun p =>
  if p = [] ∨ p = [ascii "a"] then some (.directory true 0o700)
  else if p = [ascii "a", valueName] then some .symlink
  else none

lemma linkTree_walkable : Walkable (temporaryName 1 0) linkTree := by
  have apart : temporaryName 1 0 ≠ ascii "a" := by decide +kernel
  refine ⟨fun p name found => ?_, fun dir own mode found => ?_⟩
  · by_cases first : p ++ [name] = [ascii "a"]
    · obtain ⟨rfl, -⟩ := append_singleton_inj (p := p) (q := []) first
      exact ⟨_, _, rfl⟩
    · by_cases second : p ++ [name] = [ascii "a", valueName]
      · obtain ⟨rfl, -⟩ := append_singleton_inj (p := p) (q := [ascii "a"]) second
        exact ⟨_, _, rfl⟩
      · rw [linkTree, if_neg (by simp [first]), if_neg second] at found
        exact absurd rfl found
  · rw [linkTree] at found
    split at found
    next directory =>
      obtain empty | first := directory
      · exact append_ne_nil_of_right_ne_nil dir (cons_ne_nil _ _) empty
      · exact apart (append_singleton_inj (p := dir) (q := []) first).2
    next =>
      split at found <;> cases found

theorem walker_agrees_iff_linked : ∃ out,
    WalkerReaches someNames false (temporaryName 1 0) linkTree (ascii "a") out ∧
      Agrees (syncLeaf someNames false (temporaryName 1 0) linkTree (ascii "a")) out := by
  obtain ⟨out, reaches, agrees⟩ := walker_agrees_iff someNames false (ascii "a") 1 0 0 linkTree
    ⟨_, _, rfl⟩ linkTree_walkable linkTree_walkable
  refine ⟨out, reaches, agrees.2 ?_⟩
  have path : encodedPath someNames (ascii "a") = [ascii "a"] := by decide +kernel
  rw [AlikeFor, path]
  exact ⟨rfl, nofun⟩

theorem walker_refuses_linked_value : Walkable (temporaryName 1 0) linkTree ∧
    ∃ out, WalkerReaches someNames true (temporaryName 1 0) linkTree (ascii "a") out ∧
      ¬Agrees (syncLeaf someNames true (temporaryName 1 0) linkTree (ascii "a")) out := by
  have path : encodedPath someNames (ascii "a") = [ascii "a"] := by decide +kernel
  refine ⟨linkTree_walkable, (linkTree, .failed (.system .eloop "non-regular cache value path")),
      ?_, ?_⟩
  · rw [WalkerReaches, path]
    exact reaches_last rfl
  · rw [syncLeaf, path]
    exact fun agrees => agrees.2

end Ngs3fs.Paths
