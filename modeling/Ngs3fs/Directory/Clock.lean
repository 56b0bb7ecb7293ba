import Ngs3fs.Lib.Circular

/-!
# The clock of cached directories

`cache_register_directory`, `cache_unregister_directory` and the hand of `cache_reclaim_tick`. The
flag of a detached directory is set without `cache_mutex`, so it can change while a registration
that has read it holds the mutex. -/

namespace Ngs3fs.Directory.Clock
open Circular List Function

structure State (α : Type) where
  links : Links α
  hand : Option α
  size : Nat
  linked : α → Bool
  detached : α → Bool
  /-- The registration that holds the mutex and has passed its checks. -/
  registering : Option α
  /-- The detaches that have set the flag and are still to unregister the directory. -/
  detaching : α → Nat
  /-- A null pointer was followed. -/
  crashed : Bool

inductive Op (α : Type) where
  | check (item : α)
  | link
  | startDetach (item : α)
  | unregister (item : α)
  | attach (item : α)
  | tick

namespace State
variable {α : Type} [DecidableEq α]

def start : State α :=
  ⟨⟨fun _ => none, fun _ => none⟩, none, 0, fun _ => false, fun _ => false, none, fun _ => 0, false⟩

/-- The rest of a registration, up to the unlock. -/
def link (s : State α) (item : α) : State α :=
  let linked := update s.linked item true
  match s.hand with
  | none =>
    { s with
      links := s.links.insert item item item, hand := some item, linked, size := s.size + 1,
      registering := none }
  | some hand =>
    match s.links.prev hand with
    | none => { s with crashed := true }
    | some tail =>
      { s with
        links := s.links.insert tail item hand, linked, size := s.size + 1, registering := none }

/-- `cache_unregister_directory`. -/
def unregister (s : State α) (item : α) : State α :=
  let linked := update s.linked item false
  if s.linked item = false then s
  else if s.links.next item = some item then
    { s with links := s.links.clear item, hand := none, linked, size := s.size - 1 }
  else
    match s.links.prev item, s.links.next item with
    | some before, some after =>
      { s with
        links := (s.links.bypass before after).clear item, linked, size := s.size - 1,
        hand := if s.hand = some item then some after else s.hand }
    | _, _ => { s with crashed := true }

/-- A call that does not get the mutex waits. -/
def step (s : State α) : Op α → State α
  | .check item =>
    if s.registering ≠ none ∨ s.linked item ∨ s.detached item then s
    else { s with registering := some item }
  | .link =>
    match s.registering with
    | none => s
    | some item => s.link item
  | .startDetach item =>
    { s with
      detached := update s.detached item true,
      detaching := update s.detaching item (s.detaching item + 1) }
  | .unregister item =>
    if s.registering ≠ none then s
    else
      { s.unregister item with
        detaching := update s.detaching item (s.detaching item - 1) }
  | .attach item => { s with detached := update s.detached item false }
  | .tick => if s.registering ≠ none then s else { s with hand := s.hand.bind s.links.next }

def run (ops : List (Op α)) : State α := ops.foldl step start

/-- `l` is the ring from the hand on. -/
structure Inv (s : State α) (l : List α) : Prop where
  ring : Around s.links l
  hand : s.hand = l.head?
  size : s.size = l.length
  linked : ∀ item, s.linked item = true ↔ item ∈ l
  fresh : ∀ item ∈ s.registering, item ∉ l
  sound : s.crashed = false
  pending : ∀ item, s.detached item = true → item ∈ l ∨ s.registering = some item →
    0 < s.detaching item

variable {s : State α} {l : List α}

lemma Inv.link (inv : s.Inv l) {item} (registering : s.registering = some item) :
    (s.link item).Inv (l ++ [item]) := by
  have new := inv.fresh item registering
  have linked (other : α) : update s.linked item true other = true ↔
      other ∈ l ++ [item] := by
    rw [update_apply, mem_append, mem_singleton, ← inv.linked]
    by_cases same : other = item
    · simp only [same, if_true, or_true]
    · simp only [same, if_false, or_false]
  have pending (other : α) (detached : s.detached other = true)
      (mem : other ∈ l ++ [item] ∨ none = some other) : 0 < s.detaching other := by
    obtain mem | last := mem_append.1 (mem.resolve_right nofun)
    · exact inv.pending other detached (.inl mem)
    · exact inv.pending other detached (.inr (mem_singleton.1 last ▸ registering))
  have size : s.size + 1 = (l ++ [item]).length := by rw [inv.size, length_append, length_singleton]
  rw [State.link]
  split
  next empty =>
    cases head?_eq_none_iff.1 (inv.hand.symm.trans empty)
    exact ⟨Around.single .., rfl, size, linked, nofun, inv.sound, pending⟩
  next hand first =>
    have first := inv.hand.symm.trans first
    have some' := ne_nil_of_mem (mem_of_mem_head? first)
    have last := getLast?_eq_some_getLast some'
    rw [(inv.ring.closed _ last _ first).2]
    refine ⟨inv.ring.insert first last new, ?_, size, linked, nofun, inv.sound, pending⟩
    rw [head?_append_of_ne_nil _ some']
    exact inv.hand

/-- The ring is turned until it starts with the directory. -/
lemma Inv.unregister (inv : s.Inv l) (free : s.registering = none) (item : α) (n : Nat) : ∃ l',
    { s.unregister item with detaching := update s.detaching item n }.Inv l' := by
  have fresh (l' : List α) : ∀ other ∈ s.registering, other ∉ l' := by
    rw [free]
    exact nofun
  have pending {l' : List α} (kept : ∀ other ∈ l', other ∈ l ∧ other ≠ item) (other : α)
      (detached : s.detached other = true) (mem : other ∈ l' ∨ s.registering = some other) :
      0 < update s.detaching item n other := by
    obtain ⟨old, ne⟩ := kept other (mem.resolve_right (free ▸ nofun))
    rw [update_of_ne ne]
    exact inv.pending other detached (.inl old)
  rw [State.unregister]
  split
  next unlinked =>
    refine ⟨l, inv.ring, inv.hand, inv.size, inv.linked, fresh l, inv.sound, pending ?_⟩
    rintro other mem
    refine ⟨mem, ?_⟩
    rintro rfl
    rw [(inv.linked other).2 mem] at unlinked
    cases unlinked
  next present =>
    obtain ⟨first, rest, rfl⟩ := append_of_mem ((inv.linked item).1 (Bool.not_eq_false _ ▸ present))
    have turned : Around s.links (item :: (rest ++ first)) := inv.ring.rotate
    have absent : item ∉ first ++ rest := by
      rw [mem_append, or_comm, ← mem_append]
      exact (nodup_cons.1 turned.nodup).1
    have kept (other : α) :
        other ∈ first ++ rest ↔ other ∈ first ++ item :: rest ∧ other ≠ item := by
      simp only [mem_append, mem_cons]
      constructor
      · exact fun mem => ⟨mem.imp_right .inr, fun same => absent (same ▸ mem_append.2 mem)⟩
      · exact fun ⟨mem, ne⟩ => mem.imp_right fun mem => mem.resolve_left ne
    have linked (other : α) : update s.linked item false other = true ↔
        other ∈ first ++ rest := by
      rw [kept, ← inv.linked, update_apply]
      by_cases same : other = item
      · simp only [same, if_true, Bool.false_eq_true, ne_eq, not_true, and_false]
      · simp only [same, if_false, ne_eq, not_false_iff, and_true]
    have size : s.size - 1 = (first ++ rest).length := by
      rw [inv.size, length_append, length_cons, length_append]
      rfl
    have pending := pending fun other => (kept other).1
    by_cases alone : rest ++ first = []
    · obtain ⟨rfl, rfl⟩ := append_eq_nil_iff.1 alone
      rw [if_pos (inv.ring.closed item rfl item rfl).1]
      exact ⟨[], .nil, rfl, size, linked, fresh _, inv.sound, pending⟩
    · obtain ⟨before, after, hPrev, hNext, head, ring⟩ := turned.remove alone
      have other : after ≠ item := by
        rintro rfl
        exact (nodup_cons.1 turned.nodup).1 (mem_of_mem_head? head)
      rw [if_neg (by rw [hNext]; exact fun h => other (Option.some.inj h)), hPrev, hNext]
      refine ⟨first ++ rest, ring.rotate, ?_, size, linked, fresh _, inv.sound, pending⟩
      rw [inv.hand]
      cases first with
      | nil =>
        rw [append_nil] at head
        exact (if_pos rfl).trans (Eq.symm head)
      | cons hand first =>
        refine if_neg fun same => absent ?_
        cases same
        exact mem_cons_self

omit [DecidableEq α] in
lemma Inv.tick (inv : s.Inv l) : ∃ l', { s with hand := s.hand.bind s.links.next }.Inv l' := by
  rw [inv.hand]
  cases l with
  | nil => exact ⟨[], inv.ring, rfl, inv.size, inv.linked, inv.fresh, inv.sound, inv.pending⟩
  | cons hand rest =>
    have mem (item : α) : item ∈ rest ++ [hand] ↔ item ∈ hand :: rest := by
      rw [mem_append, mem_singleton, mem_cons, or_comm]
    refine ⟨rest ++ [hand], Around.rotate (l := [hand]) inv.ring, ?_, ?_, ?_, ?_, inv.sound, ?_⟩
    · cases rest with
      | nil => exact (inv.ring.closed hand rfl hand rfl).1
      | cons next rest => exact (isChain_cons_cons.1 inv.ring.path).1.1
    · rw [length_append, inv.size]
      rfl
    · exact fun item => (inv.linked item).trans (mem item).symm
    · exact fun item registering => mt (mem item).1 (inv.fresh item registering)
    · exact fun item detached here => inv.pending item detached (here.imp_left (mem item).1)

lemma Inv.step (inv : s.Inv l) (op : Op α) : ∃ l', (s.step op).Inv l' := by
  cases op with
  | check item =>
    rw [State.step]
    split
    · exact ⟨l, inv⟩
    next free =>
      simp only [not_or, not_not, Bool.not_eq_true] at free
      obtain ⟨-, unlinked, attached⟩ := free
      refine ⟨l, inv.ring, inv.hand, inv.size, inv.linked, ?_, inv.sound, ?_⟩
      · rintro other ⟨⟩ mem
        rw [(inv.linked item).2 mem] at unlinked
        cases unlinked
      · rintro other detached (mem | ⟨⟨⟩⟩)
        · exact inv.pending other detached (.inl mem)
        · rw [attached] at detached
          cases detached
  | link =>
    rw [State.step]
    split
    · exact ⟨l, inv⟩
    next item registering => exact ⟨_, inv.link registering⟩
  | startDetach item =>
    rw [State.step]
    refine ⟨l, inv.ring, inv.hand, inv.size, inv.linked, inv.fresh, inv.sound, ?_⟩
    intro other detached here
    dsimp only at detached ⊢
    by_cases same : other = item
    · rw [same, update_self]
      exact Nat.succ_pos _
    · rw [update_of_ne same] at detached ⊢
      exact inv.pending other detached here
  | unregister item =>
    rw [State.step]
    split
    · exact ⟨l, inv⟩
    next free => exact inv.unregister (not_not.1 free) item _
  | attach item =>
    refine ⟨l, inv.ring, inv.hand, inv.size, inv.linked, inv.fresh, inv.sound, ?_⟩
    intro other detached here
    by_cases same : other = item
    · rw [same] at detached
      exact absurd ((update_self ..).symm.trans detached) Bool.false_ne_true
    · exact inv.pending other ((update_of_ne same ..).symm.trans detached) here
  | tick =>
    rw [State.step]
    split
    · exact ⟨l, inv⟩
    · exact inv.tick

end State

/-- After any calls and detaches the linked directories are one ring from the hand on, and one of
them is detached only while its detach is under way. -/
theorem clock_ring {α : Type} [DecidableEq α] (ops : List (Op α)) :
    let s := State.run ops
    s.crashed = false ∧
    (∃ l, Around s.links l ∧ s.hand = l.head? ∧ s.size = l.length ∧
      ∀ item, s.linked item = true ↔ item ∈ l) ∧
    ∀ item, s.linked item = true → s.detached item = true → 0 < s.detaching item := by
  have run : ∀ s : State α, (∃ l, s.Inv l) → ∃ l, (ops.foldl State.step s).Inv l := by
    induction ops with
    | nil => exact fun s h => h
    | cons op ops ih => exact fun s ⟨l, inv⟩ => ih _ (inv.step op)
  obtain ⟨l, inv⟩ := run .start ⟨[], .nil, rfl, rfl, fun _ => ⟨nofun, nofun⟩, nofun, rfl, nofun⟩
  refine ⟨inv.sound, ⟨l, inv.ring, inv.hand, inv.size, inv.linked⟩, fun item linked detached => ?_⟩
  exact inv.pending item detached (.inl ((inv.linked item).1 linked))

end Ngs3fs.Directory.Clock
