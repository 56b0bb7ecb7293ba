import Ngs3fs.Paths.Walker

/-!
# Failed promotions

One call of the promotion of a file to a directory fails without effect: the synchronous
`cache_promote_file` takes back what it has done, and the walker only closes its descriptors. -/

namespace Ngs3fs.Paths

open FileTree Function

variable {F : Type}

inductive PromotionPoint
  | renameOut | mkdir | openat | renameIn
  deriving DecidableEq

def PromotionPoint.phase : PromotionPoint → Phase
  | .renameOut => .promoteRenameOut
  | .mkdir => .promoteMkdir
  | .openat => .promoteOpen
  | .renameIn => .promoteRenameIn

inductive Version
  | synchronous | asynchronous
  deriving DecidableEq

section
variable (point : PromotionPoint) (errno : Errno)

def failing {α : Type} (call : PromotionPoint) (result : Except Errno α) : Except Errno α :=
  if call = point then .error errno else result

def promoteIntoFailing (fs : Tree F) (dir : List Bytes) (name temporary : Bytes) :
    Tree F × Except Error Unit :=
  match failing point errno .mkdir (mkdirat fs dir name) with
  | .error e => (fs, .error (.system e "mkdirat(cache promotion)"))
  | .ok fs =>
    match failing point errno .openat (openDirectory fs dir name) with
    | .error e => (fs, .error (.system e "openat(cache directory)"))
    | .ok p =>
      match secureDirectory fs p with
      | (fs, .error e) => (fs, .error e)
      | (fs, .ok ()) =>
        match failing point errno .renameIn (renameat fs dir temporary p valueName) with
        | .error e => (fs, .error (.system e "renameat(cache promotion value)"))
        | .ok fs => (fs, .ok ())

/-- The calls that take it back do not fail. -/
def cachePromoteFailing (fs : Tree F) (dir : List Bytes) (name temporary : Bytes) :
    Tree F × Except Error Unit :=
  match failing point errno .renameOut (renameat fs dir name dir temporary) with
  | .error e => (fs, .error (.system e "renameat(cache promotion source)"))
  | .ok fs =>
    match promoteIntoFailing point errno fs dir name temporary with
    | (fs, .ok ()) => (fs, .ok ())
    | (fs, .error e) =>
      let fs := (rmdir fs dir name).toOption.getD fs
      ((renameat fs dir temporary dir name).toOption.getD fs, .error e)

def proceed (n : Nat) (fs : Tree F) : Walker × (Request ⊕ Completion) → Option (Tree F × Completion)
  | (w, .inl request) => drive n fs w request
  | (_, .inr completion) => some (fs, completion)

def driveFailing : Nat → Tree F → Walker → Request → Option (Tree F × Completion)
  | 0, _, _, _ => none
  | n + 1, fs, w, request =>
    if w.phase = point.phase then proceed n fs (w.advance (.error errno : Except Errno (Reply F)))
    else
      match perform fs request with
      | (fs, result) =>
        match w.advance result with
        | (w, .inl request) => driveFailing n fs w request
        | (_, .inr completion) => some (fs, completion)

/-- The component that the walker stands at is promoted; it needs six requests at most. -/
def promotion (version : Version) (fs : Tree F) (w : Walker) : Option (Tree F × Error) :=
  match version with
  | .synchronous =>
    match cachePromoteFailing point errno fs w.current w.component w.temporary with
    | (fs, .error e) => some (fs, e)
    | (_, .ok ()) => none
  | .asynchronous =>
    match driveFailing point errno 6 fs { w with phase := .promoteRenameOut }
      (.renameat w.current w.component w.current w.temporary) with
    | some (fs, .failed e) => some (fs, e)
    | _ => none

end

/-! ### Where the file is -/

section
variable {fs : Tree F} {dir : List Bytes} {name temporary : Bytes} {f : F}

def movedOut (fs : Tree F) (dir : List Bytes) (name temporary : Bytes) (f : F) : Tree F :=
  update (update fs (dir ++ [name]) none) (dir ++ [temporary]) (some (.file f))

def replaced (fs : Tree F) (dir : List Bytes) (name temporary : Bytes) (f : F) : Tree F :=
  update (movedOut fs dir name temporary f) (dir ++ [name]) (some (.directory true 0o700))

variable (file : fs (dir ++ [name]) = some (.file f)) (apart : name ≠ temporary)
  (free : ∀ owned mode, fs (dir ++ [temporary]) ≠ some (.directory owned mode))

include file free in
/-- A leftover file under the temporary name is replaced without a word. -/
lemma renameat_out :
    renameat fs dir name dir temporary = .ok (movedOut fs dir name temporary f) := by
  simp only [renameat, file]
  rfl

include apart

lemma names_apart : dir ++ [name] ≠ dir ++ [temporary] := by
  simpa using apart

lemma movedOut_name : movedOut fs dir name temporary f (dir ++ [name]) = none := by
  rw [movedOut, update_of_ne (names_apart apart), update_self]

lemma mkdirat_movedOut : mkdirat (movedOut fs dir name temporary f) dir name =
    .ok (replaced fs dir name temporary f) := by
  simp only [mkdirat, movedOut_name apart]
  rfl

lemma rmdir_replaced : rmdir (replaced fs dir name temporary f) dir name =
    .ok (movedOut fs dir name temporary f) := by
  have empty : movedOut fs dir name temporary f (dir ++ [name]) = none := movedOut_name apart
  simp only [rmdir, replaced, update_self]
  rw [update_idem, update_eq_self_iff.2 empty.symm]

include file

lemma renameat_back : renameat (movedOut fs dir name temporary f) dir temporary dir name =
    .ok (update fs (dir ++ [temporary]) none) := by
  have there : movedOut fs dir name temporary f (dir ++ [temporary]) = some (.file f) := by
    rw [movedOut, update_self]
  have ne : dir ++ [name] ≠ dir ++ [temporary] := names_apart apart
  simp only [renameat, there, movedOut_name apart, Except.ok.injEq]
  funext p
  by_cases first : p = dir ++ [name]
  · rw [first, update_self, update_of_ne ne, file]
  rw [update_of_ne first]
  by_cases second : p = dir ++ [temporary]
  · rw [second, update_self, update_self]
  · rw [update_of_ne second, movedOut, update_of_ne second, update_of_ne first, update_of_ne second]

include free

/-- What the file replaced is not brought back. -/
lemma cachePromoteFailing_leaves {point : PromotionPoint} (later : point ≠ .renameOut)
    (errno : Errno) :
    ∃ e, cachePromoteFailing point errno fs dir name temporary =
      (update fs (dir ++ [temporary]) none, .error e) := by
  have out := renameat_out file free
  have made : mkdirat (movedOut fs dir name temporary f) dir name = _ := mkdirat_movedOut apart
  have back := renameat_back file apart
  have removed : rmdir (replaced fs dir name temporary f) dir name = _ := rmdir_replaced apart
  have opened : openDirectory (replaced fs dir name temporary f) dir name =
    .ok (dir ++ [name]) := by
    simp only [openDirectory, replaced, update_self]
  have secure : secureDirectory (replaced fs dir name temporary f) (dir ++ [name]) =
      (replaced fs dir name temporary f, .ok ()) := by
    simp [secureDirectory, replaced]
  have nothing : rmdir (movedOut fs dir name temporary f) dir name = .error .enoent := by
    simp only [rmdir, movedOut_name apart]
  cases point with
  | renameOut => exact absurd rfl later
  | mkdir =>
    simp [cachePromoteFailing, promoteIntoFailing, failing, out, nothing, back, Except.toOption]
  | openat =>
    simp [cachePromoteFailing, promoteIntoFailing, failing, out, made, removed, back,
      Except.toOption]
  | renameIn =>
    simp [cachePromoteFailing, promoteIntoFailing, failing, out, made, opened, secure,
      removed, back,
      Except.toOption]

end

/-! ### The walker -/

section
variable {fs : Tree F} {w : Walker} {f : F}

lemma proceed_beginError (n : Nat) (fs : Tree F) (w : Walker) (e : Error) :
    proceed (n + 2) fs (w.beginError e) = some (fs, .failed (w.error.getD e)) := by
  obtain ⟨components, index, create, temporary, current, next, owned, leaf, value,
    error, phase⟩ := w
  cases next with
  | none =>
    cases owned with
    | false => rfl
    | true => rfl
  | some fd =>
    cases owned with
    | false => rfl
    | true => rfl

lemma driveFailing_step {point errno n fs'} {w' request request' result}
    (other : w.phase ≠ point.phase) (served : perform fs request = (fs', result))
    (next : w.advance result = (w', .inl request')) :
    driveFailing point errno (n + 1) fs w request = driveFailing point errno n fs' w' request' := by
  rw [driveFailing, if_neg other, served]
  simp only [next]

/-- What the walker leaves when a call after the first has failed. -/
def PromotionPoint.left (point : PromotionPoint) (fs : Tree F) (w : Walker) (f : F) : Tree F :=
  match point with
  | .renameOut => fs
  | .mkdir => movedOut fs w.current w.component w.temporary f
  | .openat | .renameIn => replaced fs w.current w.component w.temporary f

/-- The first call of the promotion of the component that the walker stands at. -/
def PromotionPoint.first (point : PromotionPoint) (errno : Errno) (fs : Tree F) (w : Walker) :
    Except Errno (Tree F) :=
  failing point errno .renameOut (renameat fs w.current w.component w.current w.temporary)

section
variable {point : PromotionPoint} {errno : Errno}

lemma first_ok {fs'} (file : fs (w.current ++ [w.component]) = some (.file f))
    (ok : point.first errno fs w = .ok fs') : point ≠ .renameOut ∧
      ∀ owned mode, fs (w.current ++ [w.temporary]) ≠ some (.directory owned mode) := by
  refine ⟨?_, fun owned mode there => ?_⟩
  · rintro rfl
    cases ok
  · rw [PromotionPoint.first, failing] at ok
    split at ok
    · cases ok
    · simp only [renameat, file, there] at ok
      cases ok

lemma driveFailing_refused {e} (refused : point.first errno fs w = .error e) (other : e ≠ .enoent) :
    ∃ e, driveFailing point errno 6 fs { w with phase := .promoteRenameOut }
      (.renameat w.current w.component w.current w.temporary) = some (fs, .failed e) := by
  have failed : ({ w with phase := .promoteRenameOut } : Walker).advance
      (.error e : Except Errno (Reply F)) = ({ w with phase := .promoteRenameOut } :
        Walker).beginError (.system e "renameat(cache promotion source)") := by
    cases e <;> first | rfl | exact absurd rfl other
  refine ⟨w.error.getD (.system e "renameat(cache promotion source)"), ?_⟩
  rw [PromotionPoint.first, failing] at refused
  split at refused
  · rename_i here
    cases here
    cases refused
    change proceed 5 fs (Walker.advance _ _) = _
    rw [failed]
    exact proceed_beginError 3 fs { w with phase := .promoteRenameOut } _
  · rename_i later
    have served : perform fs (.renameat w.current w.component w.current w.temporary) =
        (fs, .error e) := by
      simp only [perform, refused]
    have elsewhere : ({ w with phase := .promoteRenameOut } : Walker).phase ≠ point.phase := by
      cases point with
      | renameOut => exact absurd rfl later
      | mkdir | openat | renameIn => exact (Phase.noConfusion ·)
    rw [driveFailing, if_neg elsewhere, served]
    simp only [failed]
    obtain ⟨components, index, create, temporary, current, next, owned, leaf, value,
      error, phase⟩ := w
    cases point with
    | renameOut => exact absurd rfl later
    | mkdir | openat | renameIn =>
      cases next with
      | none =>
        cases owned with
        | false | true => rfl
      | some fd =>
        cases owned with
        | false | true => rfl

lemma driveFailing_leaves (errno : Errno) (file : fs (w.current ++ [w.component]) = some (.file f))
    (apart : w.component ≠ w.temporary) (later : point ≠ .renameOut)
    (free : ∀ owned mode, fs (w.current ++ [w.temporary]) ≠ some (.directory owned mode)) :
    ∃ e, driveFailing point errno 6 fs { w with phase := .promoteRenameOut }
      (.renameat w.current w.component w.current w.temporary) =
        some (point.left fs w f, .failed e) := by
  have moved : perform fs (.renameat w.current w.component w.current w.temporary) =
      (movedOut fs w.current w.component w.temporary f, .ok .done) := by
    simp only [perform, renameat_out file free]
  have made : perform (movedOut fs w.current w.component w.temporary f)
      (.mkdirat w.current w.component) =
        (replaced fs w.current w.component w.temporary f, .ok .done) := by
    simp only [perform, mkdirat_movedOut apart]
  have opened : perform (replaced fs w.current w.component w.temporary f)
      (.openat w.current w.component) = (replaced fs w.current w.component w.temporary f,
        .ok (.opened (w.current ++ [w.component]))) := by
    simp only [perform, openDirectory, replaced, update_self]
  cases point with
  | renameOut => exact absurd rfl later
  | mkdir =>
    refine ⟨w.error.getD (.system errno "mkdirat(cache promotion)"), ?_⟩
    refine (driveFailing_step (Phase.noConfusion ·) moved rfl).trans ?_
    exact proceed_beginError 2 _ { w with phase := .promoteMkdir } _
  | openat =>
    refine ⟨w.error.getD (.system errno "openat(cache promotion)"), ?_⟩
    refine (driveFailing_step (Phase.noConfusion ·) moved rfl).trans ?_
    refine (driveFailing_step (Phase.noConfusion ·) made rfl).trans ?_
    exact proceed_beginError 1 _ { w with phase := .promoteOpen } _
  | renameIn =>
    refine ⟨w.error.getD (.system errno "renameat(cache promotion value)"), ?_⟩
    refine (driveFailing_step (Phase.noConfusion ·) moved rfl).trans ?_
    refine (driveFailing_step (Phase.noConfusion ·) made rfl).trans ?_
    refine (driveFailing_step (Phase.noConfusion ·) opened rfl).trans ?_
    exact proceed_beginError 0 _ { w with
      phase := .promoteRenameIn, next := some (w.current ++ [w.component]) } _

/-- The component is gone or a directory. -/
lemma left_ne (file : fs (w.current ++ [w.component]) = some (.file f))
    (apart : w.component ≠ w.temporary) (later : point ≠ .renameOut) : point.left fs w f ≠ fs := by
  intro same
  have there := congrFun same (w.current ++ [w.component])
  rw [file] at there
  cases point with
  | renameOut => exact later rfl
  | mkdir => cases (movedOut_name apart).symm.trans there
  | openat | renameIn =>
    rw [PromotionPoint.left, replaced, update_self] at there
    cases there

end

end

/-- **Failed promotions.** Where an error of a promotion is reported, the tree is the one before it
if and only if the first call has failed, or the promotion is synchronous and the temporary name was
unused. -/
theorem promotion_restores_iff (version : Version) (point : PromotionPoint) (errno : Errno)
    (fs : Tree F) (w : Walker) (f : F) (file : fs (w.current ++ [w.component]) = some (.file f))
    (apart : w.component ≠ w.temporary)
    (reported : version = .asynchronous → ¬ (point = .renameOut ∧ errno = .enoent)) :
    ∃ fs' e, promotion point errno version fs w = some (fs', e) ∧
      (fs' = fs ↔ (point.first errno fs w).toOption = none ∨
        version = .synchronous ∧ fs (w.current ++ [w.temporary]) = none) := by
  cases first : point.first errno fs w with
  | error e =>
    have refused := first
    rw [PromotionPoint.first] at first
    cases version with
    | synchronous =>
      refine ⟨fs, .system e "renameat(cache promotion source)", ?_, by simp [Except.toOption]⟩
      rw [promotion, cachePromoteFailing, first]
    | asynchronous =>
      have other : e ≠ .enoent := by
        rintro rfl
        rw [failing] at first
        split at first
        · rename_i here
          cases first
          exact reported rfl ⟨here.symm, rfl⟩
        · rw [renameat, file] at first
          dsimp only at first
          split at first
          all_goals cases first
      obtain ⟨e, failed⟩ := driveFailing_refused refused other
      exact ⟨fs, e, by rw [promotion, failed], by simp [Except.toOption]⟩
  | ok fs1 =>
    obtain ⟨later, free⟩ := first_ok file first
    cases version with
    | synchronous =>
      obtain ⟨e, failed⟩ := cachePromoteFailing_leaves file apart free later errno
      refine ⟨_, e, by rw [promotion, failed], ?_⟩
      simp [Except.toOption, eq_comm]
    | asynchronous =>
      obtain ⟨e, failed⟩ := driveFailing_leaves errno file apart later free
      refine ⟨_, e, by rw [promotion, failed], ?_⟩
      simp [Except.toOption, left_ne file apart later]

def oneFile : Tree Unit
  | [] => some (.directory true 0o700)
  | [[1]] => some (.file ())
  | _ => none

theorem promotion_restores_iff_undone :
    ∃ fs' e, promotion .renameIn .enoent .synchronous oneFile (startWalk [[1], [2]] true [9]) =
      some (fs', e) ∧ fs' = oneFile := by
  obtain ⟨fs', e, reports, restores⟩ := promotion_restores_iff .synchronous .renameIn .enoent
    oneFile (startWalk [[1], [2]] true [9]) () rfl (by decide) nofun
  exact ⟨fs', e, reports, restores.2 (.inr ⟨rfl, rfl⟩)⟩

theorem walker_loses_file :
    ∃ fs' e, promotion .mkdir .eexist .asynchronous oneFile (startWalk [[1], [2]] true [9]) =
      some (fs', e) ∧ fs' [[1]] = none ∧ fs' [[9]] = some (.file ()) :=
  ⟨_, _, rfl, rfl, rfl⟩

end Ngs3fs.Paths
