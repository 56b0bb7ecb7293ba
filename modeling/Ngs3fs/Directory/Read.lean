import Mathlib.Data.List.Count
import Ngs3fs.Lib.Machine

/-!
# Reading a directory

`reply_directory_entries` takes the lock of the children for each entry it appends, so that the
directory may change between any two of them. The cookie of an entry is its slot in the hash map,
with two places before for `.` and `..`; the map keeps the slot of an entry as long as it lives. The
application goes on from the last cookie it has got, until a reply is empty; a buffer has room for
an entry. -/

namespace Ngs3fs.Directory
open Machine List Function Option

inductive Dirent
  | dot
  | dotdot
  | child (name : List UInt8)
  deriving DecidableEq

/-- A call under way: what is left of its buffer, the slot it looks at next, and whether the buffer
holds an entry. -/
structure Call where
  room : Nat
  slot : Nat
  filled : Bool

/-- The children, and what the application has read of them. -/
structure Reading where
  children : Nat → Option (List UInt8)
  endI : Nat
  offset : Nat
  call : Option Call
  entries : List Dirent
  ended : Bool

inductive Event
  | readdir (size : Nat)
  | next
  | insert (slot : Nat) (name : List UInt8)
  | replace (slot : Nat)
  | erase (slot : Nat)

namespace Reading
variable (direntSize : Dirent → Nat) (r : Reading)

/-- `append`, of an entry that fits. -/
def append (c : Call) (e : Dirent) (slot next : Nat) : Reading :=
  { r with
    offset := next
    call := some ⟨c.room - direntSize e, slot, true⟩
    entries := r.entries ++ [e] }

/-- An entry that does not fit ends a call that has others. -/
def full (c : Call) : Option Reading := if c.filled then some { r with call := none } else none

/-- A turn of the loop. -/
def turn (c : Call) : Option Reading :=
  match (range' c.slot (r.endI - c.slot)).find? fun slot => (r.children slot).isSome with
  | none => some { r with call := none, ended := !c.filled }
  | some slot =>
    let e := Dirent.child ((r.children slot).getD [])
    if c.room < direntSize e then r.full c
    else some (r.append direntSize c e (slot + 1) (slot + 3))

/-- `..`, if it has not been read. -/
def parent (c : Call) : Option Reading :=
  if r.offset ≤ 1 then
    if c.room < direntSize .dotdot then r.full c
    else some (r.append direntSize c .dotdot 0 2)
  else some { r with call := some c }

/-- A `readdir` call, a turn of its loop, or a change of the children. -/
def step : Event → Option Reading
  | .readdir size =>
    if r.call.isSome || r.ended then none
    else
      let c : Call := ⟨size, if r.offset ≤ 2 then 0 else r.offset - 2, false⟩
      if r.offset = 0 then
        if c.room < direntSize .dot then none
        else
          parent direntSize { r with offset := 1, entries := r.entries ++ [.dot] }
            ⟨size - direntSize .dot, 0, true⟩
      else r.parent direntSize c
  | .next => r.call.bind (r.turn direntSize)
  | .insert slot name =>
    if r.children slot = none ∧ ∀ i < r.endI, r.children i ≠ some name then
      some { r with
        children := update r.children slot (some name), endI := max r.endI (slot + 1) }
    else none
  | .replace _ => some r
  | .erase slot => some { r with children := update r.children slot none }

/-- A sequence of calls begins. -/
def opened (children : Nat → Option (List UInt8)) (endI : Nat) : Reading :=
  ⟨children, endI, 0, none, [], false⟩

/-- The entry after which the offset is `place + 1`. -/
def At : Dirent → Nat → Prop
  | .dot, place => place = 0
  | .dotdot, place => place = 1
  | .child name, place => ∃ slot, r.children slot = some name ∧ place = slot + 2

/-- A hash map, and a reading that has come to the slot its offset says. -/
structure Sound : Prop where
  inside : ∀ {slot name}, r.children slot = some name → slot < r.endI
  unique : ∀ {i j name}, r.children i = some name → r.children j = some name → i = j
  underway : ∀ c, r.call = some c → r.ended = false ∧ r.offset = c.slot + 2

/-- What has been read of an entry. -/
structure Tracks (e : Dirent) : Prop where
  count : ∀ {place}, r.At e place → r.entries.count e = if place < r.offset then 1 else 0
  ended : r.ended = true → r.entries.count e = 1

variable {direntSize r} {r' : Reading} {c : Call} {e d : Dirent} {place : Nat}

lemma Sound.place_unique {other} (sound : r.Sound) (here : r.At e place)
    (there : r.At e other) : place = other := by
  cases e with
  | dot | dotdot => exact here.trans there.symm
  | child name =>
    obtain ⟨i, known, rfl⟩ := here
    obtain ⟨j, known', rfl⟩ := there
    rw [sound.unique known known']

lemma At.entry (here : r.At e place) (there : r.At d place) : e = d := by
  cases e <;> cases d
  case child.child =>
    obtain ⟨i, known, rfl⟩ := here
    obtain ⟨j, known', same⟩ := there
    obtain rfl : i = j := by omega
    rw [some.inj (known.symm.trans known')]
  all_goals
    simp only [At] at here there
    first | rfl | omega

/-- The next entry there is has been appended. -/
lemma Tracks.appended (sound : r.Sound) (tracks : r.Tracks d) (reading : r.ended = false)
    (here : r.At e place) (from_ : r.offset ≤ place)
    (gap : ∀ {d other}, r.At d other → r.offset ≤ other → place ≤ other) {call} :
    Tracks { r with offset := place + 1, call, entries := r.entries ++ [e] } d := by
  refine ⟨fun {other} there => ?_, fun ended => absurd (reading.symm.trans ended) nofun⟩
  show (r.entries ++ [e]).count d = if other < place + 1 then 1 else 0
  rw [count_append, tracks.count there, count_singleton]
  by_cases same : e = d
  · subst same
    obtain rfl := sound.place_unique here there
    rw [if_neg (by omega), if_pos (by simp), if_pos (by omega)]
  · have apart : other ≠ place := fun eq => same (here.entry (eq ▸ there))
    have := gap there
    rw [if_neg (show ¬ (e == d) = true by simpa using same)]
    exact if_congr (by omega) rfl rfl

lemma full_keeps (sound : r.Sound) (full : r.full c = some r') :
    r'.Sound ∧ (r.Tracks d → r'.Tracks d) := by
  obtain ⟨-, ⟨⟩⟩ := ite_none_right_eq_some.1 full
  exact ⟨⟨sound.inside, sound.unique, nofun⟩, fun tracks => ⟨tracks.count, tracks.ended⟩⟩

lemma turn_keeps (sound : r.Sound) (reading : r.ended = false) (at_slot : r.offset = c.slot + 2)
    (turns : r.turn direntSize c = some r') :
    r'.Sound ∧ (r.Tracks d → (∃ place, r.At d place) → r'.Tracks d) := by
  -- a child that the loop has not come to yet
  have later {d : Dirent} {place : Nat} (there : r.At d place) (after : r.offset ≤ place) :
      ∃ slot name, place = slot + 2 ∧ c.slot ≤ slot ∧ r.children slot = some name := by
    cases d with
    | dot | dotdot =>
      simp only [At] at there
      omega
    | child name =>
      obtain ⟨slot, known, rfl⟩ := there
      exact ⟨slot, name, rfl, by omega, known⟩
  simp only [turn] at turns
  split at turns
  · rename_i none
    cases turns
    refine ⟨⟨sound.inside, sound.unique, nofun⟩, ?_⟩
    rintro tracks ⟨place, there⟩
    refine ⟨tracks.count, fun _ => (tracks.count there).trans (if_pos ?_)⟩
    by_contra after
    obtain ⟨slot, name, rfl, from_, known⟩ := later there (Nat.le_of_not_lt after)
    have inside := sound.inside known
    have deleted := find?_range'_eq_none.1 none slot from_ (by omega)
    rw [known] at deleted
    cases deleted
  · rename_i slot found
    rw [find?_range'_eq_some] at found
    obtain ⟨child, range, deleted⟩ := found
    have from_ : c.slot ≤ slot := (mem_range'_1.1 range).1
    obtain ⟨name, here⟩ := isSome_iff_exists.1 child
    rw [here, getD_some] at turns
    split at turns
    · obtain ⟨sound', tracks'⟩ := full_keeps sound turns
      exact ⟨sound', fun tracks _ => tracks' tracks⟩
    · cases turns
      refine ⟨⟨sound.inside, sound.unique, ?_⟩, fun tracks _ =>
        tracks.appended (e := .child name) sound reading ⟨slot, here, rfl⟩ (by omega)
          fun there after => ?_⟩
      · rintro _ ⟨⟩
        exact ⟨reading, rfl⟩
      · by_contra between
        obtain ⟨i, known, rfl, lower, there⟩ := later there after
        have gone := deleted i lower (by omega)
        rw [there] at gone
        cases gone

lemma parent_keeps (sound : r.Sound) (reading : r.ended = false) (begun : r.offset ≠ 0)
    (at_slot : 1 < r.offset → r.offset = c.slot + 2) (reads : r.parent direntSize c = some r') :
    r'.Sound ∧ (r.Tracks d → r'.Tracks d) := by
  simp only [parent] at reads
  split at reads
  · rename_i first
    split at reads
    · exact full_keeps sound reads
    · cases reads
      refine ⟨⟨sound.inside, sound.unique, ?_⟩, fun tracks =>
        tracks.appended (e := .dotdot) sound reading rfl first fun _ after => ?_⟩
      · rintro _ ⟨⟩
        exact ⟨reading, rfl⟩
      · omega
  · rename_i second
    cases reads
    refine ⟨⟨sound.inside, sound.unique, ?_⟩, fun tracks => ⟨tracks.count, tracks.ended⟩⟩
    rintro _ ⟨⟩
    exact ⟨reading, at_slot (Nat.lt_of_not_le second)⟩

lemma readdir_keeps {size} (sound : r.Sound) (reads : r.step direntSize (.readdir size) = some r') :
    r'.Sound ∧ (r.Tracks d → r'.Tracks d) := by
  obtain ⟨idle, reads⟩ := ite_none_left_eq_some.1 reads
  rw [Bool.or_eq_true, not_or, Bool.not_eq_true, Bool.not_eq_true, isSome_eq_false_iff,
    isNone_iff_eq_none] at idle
  obtain ⟨idle, reading⟩ := idle
  split at reads
  · rename_i first
    obtain ⟨-, reads⟩ := ite_none_left_eq_some.1 reads
    have dot : Sound { r with offset := 1, entries := r.entries ++ [.dot] } :=
      ⟨sound.inside, sound.unique, fun c call => absurd (idle.symm.trans call) nofun⟩
    obtain ⟨sound', tracks'⟩ := parent_keeps dot reading Nat.one_ne_zero
      (fun more => absurd more (Nat.lt_irrefl 1)) reads
    exact ⟨sound', fun tracks => tracks' (tracks.appended (e := .dot) sound reading rfl
      (Nat.le_of_eq first) fun _ _ => Nat.zero_le _)⟩
  · rename_i begun
    refine parent_keeps sound reading begun (fun more => ?_) reads
    show r.offset = (if r.offset ≤ 2 then 0 else r.offset - 2) + 2
    split <;> omega

/-- An entry that stays is there before a step and, as `insert` refuses its name, in the same place
after. -/
lemma step_keeps (d : Dirent) {e} (sound : r.Sound) (steps : r.step direntSize e = some r') :
    r'.Sound ∧ (r.Tracks d → (∃ place, r.At d place) → r'.Tracks d) := by
  cases e with
  | readdir size =>
    obtain ⟨sound', tracks'⟩ := readdir_keeps sound steps
    exact ⟨sound', fun tracks _ => tracks' tracks⟩
  | next =>
    obtain ⟨c, call, turns⟩ := bind_eq_some_iff.1 steps
    obtain ⟨reading, at_slot⟩ := sound.underway c call
    exact turn_keeps sound reading at_slot turns
  | insert slot other =>
    obtain ⟨⟨free, fresh⟩, ⟨⟩⟩ := ite_none_right_eq_some.1 steps
    have old : ∀ {i known}, update r.children slot (some other) i = some known →
        i = slot ∧ known = other ∨ r.children i = some known ∧ known ≠ other := by
      intro i known known_at
      rw [update_apply] at known_at
      split at known_at
      · exact .inl ⟨‹i = slot›, (some.inj known_at).symm⟩
      · refine .inr ⟨known_at, ?_⟩
        rintro rfl
        exact fresh i (sound.inside known_at) known_at
    refine ⟨⟨fun known => ?_, fun one two => ?_, sound.underway⟩,
      fun tracks ⟨place, here⟩ => ⟨fun there => tracks.count ?_, tracks.ended⟩⟩
    · obtain ⟨rfl, -⟩ | ⟨known, -⟩ := old known
      · exact Nat.le_max_right _ _
      · exact Nat.lt_of_lt_of_le (sound.inside known) (Nat.le_max_left _ _)
    · obtain ⟨rfl, rfl⟩ | ⟨one, apart⟩ := old one <;> obtain ⟨rfl, same⟩ | ⟨two, apart'⟩ := old two
      · rfl
      · exact absurd rfl apart'
      · exact absurd same apart
      · exact sound.unique one two
    · cases d with
      | dot | dotdot => exact there
      | child name =>
        obtain ⟨i, known, rfl⟩ := there
        obtain ⟨-, rfl⟩ | ⟨known, -⟩ := old known
        · obtain ⟨j, here, -⟩ := here
          exact absurd here (fresh j (sound.inside here))
        · exact ⟨i, known, rfl⟩
  | replace slot =>
    cases steps
    exact ⟨sound, fun tracks _ => tracks⟩
  | erase slot =>
    cases steps
    have old : ∀ {i known}, update r.children slot none i = some known →
        r.children i = some known := by
      intro i known known_at
      rw [update_apply] at known_at
      split at known_at
      · cases known_at
      · exact known_at
    refine ⟨⟨fun known => sound.inside (old known), fun one two => sound.unique (old one) (old two),
      sound.underway⟩, fun tracks _ => ⟨fun there => tracks.count ?_, tracks.ended⟩⟩
    cases d with
    | dot | dotdot => exact there
    | child name =>
      obtain ⟨i, known, rfl⟩ := there
      exact ⟨i, old known, rfl⟩

/-- A reading that has come to its end has `.`, `..` and every name that was there all along, each
once. -/
theorem directory_read_stable {children : Nat → Option (List UInt8)} {endI : Nat}
    (inside : ∀ {slot name}, children slot = some name → slot < endI)
    (unique : ∀ {i j name}, children i = some name → children j = some name → i = j)
    {events : List Event}
    (run : run (step direntSize) (opened children endI) events = some r)
    (ended : r.ended = true) :
    r.entries.count .dot = 1 ∧ r.entries.count .dotdot = 1 ∧
      ∀ name, Machine.Along (step direntSize) (fun s _ => ∃ slot, s.children slot = some name)
        (opened children endI) events → r.entries.count (.child name) = 1 := by
  have begins : (opened children endI).Sound := ⟨inside, unique, nofun⟩
  have first (d : Dirent) : (opened children endI).Tracks d := ⟨fun _ => rfl, nofun⟩
  -- `.` and `..` have their places in every directory
  have always (d : Dirent) (there : ∀ s : Reading, ∃ place, s.At d place) :
      r.entries.count d = 1 := by
    have tracks : r.Sound ∧ r.Tracks d := by
      refine run_inv (I := fun s => s.Sound ∧ s.Tracks d) ?_ ⟨begins, first d⟩ run
      intro s e s' kept steps
      obtain ⟨sound', tracks'⟩ := step_keeps d kept.1 steps
      exact ⟨sound', tracks' kept.2 (there s)⟩
    exact tracks.2.ended ended
  refine ⟨always .dot fun _ => ⟨0, rfl⟩, always .dotdot fun _ => ⟨1, rfl⟩, fun name along => ?_⟩
  have tracks : r.Sound ∧ r.Tracks (.child name) := by
    refine run_inv_along (I := fun s => s.Sound ∧ s.Tracks (.child name)) ?_
      ⟨begins, first _⟩ along run
    rintro s e s' kept ⟨slot, here⟩ steps
    obtain ⟨sound', tracks'⟩ := step_keeps (.child name) kept.1 steps
    exact ⟨sound', tracks' kept.2 ⟨slot + 2, slot, here, rfl⟩⟩
  exact tracks.2.ended ended

/-- Three children in buffers for two entries of one byte each. The first is erased when it has been
read, and its slot is reused, as is that of the second before it is read; the third stays. -/
theorem directory_read_stable_reused :
    ∃ r : Reading, r.ended = true ∧
      r.entries = [.dot, .dotdot, .child [1], .child [5], .child [3]] ∧
      r.entries.count (.child [3]) = 1 := by
  let children : Nat → Option (List UInt8) := fun slot => [[1], [2], [3]][slot]?
  let events : List Event := [.readdir 2, .next, .readdir 2, .next, .erase 0, .insert 0 [4],
    .erase 1, .insert 1 [5], .next, .next, .readdir 2, .next, .next, .readdir 2, .next]
  have inside : ∀ {slot name}, children slot = some name → slot < 3 :=
    fun here => (List.getElem?_eq_some_iff.1 here).1
  have unique : ∀ {i j name}, children i = some name → children j = some name → i = j :=
    fun one two => (getElem?_inj (inside one) (by decide)).1 (one.trans two.symm)
  obtain ⟨r, run, ended, entries⟩ :
      ∃ r, run (step fun _ => 1) (opened children 3) events = some r ∧ r.ended = true ∧
        r.entries = [.dot, .dotdot, .child [1], .child [5], .child [3]] :=
    ⟨_, rfl, rfl, rfl⟩
  refine ⟨r, ended, entries, ?_⟩
  refine (directory_read_stable inside unique run ended).2.2 [3] ?_
  repeat refine .cons rfl ⟨2, rfl⟩ ?_
  trivial

end Reading

end Ngs3fs.Directory
