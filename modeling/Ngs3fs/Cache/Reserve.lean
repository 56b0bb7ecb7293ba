import Ngs3fs.Cache.Capacity
import Ngs3fs.Lib.Sums

/-!
# What a reservation can get

A visit of an entry, by either eviction, is a sweep of its clock: `Visited` says what it changes.
What can be got from an object is then a matter of its queue (`gain`), and both ways to reserve
turn it into room until the reservation fits: the synchronous one all of it, the operation what two
visits of each entry reach. -/

namespace Ngs3fs.Cache
open Loop Cached List Nat

namespace CacheEntry

def swept (e : CacheEntry) : Clock.Face × Option Nat :=
  Clock.sweep e.regionCount e.evictable e.regionCount ⟨e.clockHand, e.referenced⟩

def scanned (e : CacheEntry) : CacheEntry :=
  { e with clockHand := e.swept.1.hand, referenced := e.swept.1.referenced }

lemma clockScan_sweep (k : Nat) (e : CacheEntry) : clockScan k e = ({ e with
          clockHand := (Clock.sweep e.regionCount e.evictable k ⟨e.clockHand, e.referenced⟩).1.hand
          referenced :=
            (Clock.sweep e.regionCount e.evictable k ⟨e.clockHand, e.referenced⟩).1.referenced },
        (Clock.sweep e.regionCount e.evictable k ⟨e.clockHand, e.referenced⟩).2) := by
  induction k generalizing e with
  | zero => rfl
  | succ k ih =>
    rw [clockScan, Clock.sweep]
    simp only
    split
    · rw [ih]
      rfl
    split
    · next bit free =>
      rw [if_pos (show e.evictable (e.clockHand % e.regionCount) = true from free)]
    · next bit taken =>
      rw [if_neg (show ¬ e.evictable (e.clockHand % e.regionCount) = true from taken), ih]
      rfl

lemma clockScan_eq (e : CacheEntry) : clockScan e.regionCount e = (e.scanned, e.swept.2) :=
  clockScan_sweep e.regionCount e

lemma nodup_cleanPages (e : CacheEntry) (r : Nat) : (e.cleanPages r).Nodup :=
  (nodup_range' ..).filter _

variable {e : CacheEntry}

lemma evictable_congr {e' : CacheEntry} {r} (inside : r < e.regionCount)
    (config : e'.config = e.config) (size : e'.size = e.size) (pins : e'.regionPins = e.regionPins)
    (same : ∀ page < e.pageCount, e.pageBlock page = r → e'.bitmap page = e.bitmap page) :
    e'.evictable r = e.evictable r := by
  have pages : ∀ page ∈ List.range' (e.regionFirstPage r)
      (e.regionLastPage r - e.regionFirstPage r),
      e'.bitmap page = e.bitmap page := by
    intro page mem
    rw [mem_range'_iff, mem_regionPages (lt_regionCount.1 inside)] at mem
    exact same page mem.1 mem.2
  have first : e'.regionFirstPage r = e.regionFirstPage r := by
    rw [regionFirstPage, config, regionFirstPage]
  have last : e'.regionLastPage r = e.regionLastPage r := by
    rw [regionLastPage, config, size, regionLastPage]
  have clean : e'.cleanPages r = e.cleanPages r := by
    rw [cleanPages, first, last, cleanPages]
    exact filter_congr fun page mem => by rw [pages page mem]
  have all : (List.range' (e.regionFirstPage r) (e.regionLastPage r - e.regionFirstPage r)).all
        (fun page => e'.bitmap page == .clean || e'.bitmap page == .missing) =
      (List.range' (e.regionFirstPage r) (e.regionLastPage r - e.regionFirstPage r)).all
        (fun page => e.bitmap page == .clean || e.bitmap page == .missing) := by
    rw [Bool.eq_iff_iff, all_eq_true, all_eq_true]
    exact forall₂_congr fun page mem => by rw [pages page mem]
  rw [evictable, pins, first, last, clean, all, evictable]

lemma evictable_eq_false {r} (inside : r < e.regionCount)
    (none : ∀ page < e.pageCount, e.pageBlock page = r → e.bitmap page ≠ .clean) :
    e.evictable r = false := by
  have empty : e.cleanPages r = [] := by
    rw [eq_nil_iff_forall_not_mem]
    intro page mem
    rw [mem_cleanPages (lt_regionCount.1 inside)] at mem
    exact none page mem.1 mem.2.1 mem.2.2
  rw [evictable, empty]
  simp

lemma queue_eq_nil_iff (e : CacheEntry) : e.queue = [] ↔ ∀ r, ¬ e.Evictable r := by
  rw [queue]
  split
  · next refused => exact iff_of_true rfl fun r h => by simp [h.1] at refused
  · next accepted =>
    have pos : 0 < e.regionCount := by
      by_contra none
      exact accepted (by simp [evictionRefused, show e.regionCount = 0 by omega])
    rw [Clock.queue, map_eq_nil_iff, filter_eq_nil_iff]
    constructor
    · rintro none r ⟨-, inside, free⟩
      exact none r (Clock.mem_slots e.clockHand inside) free
    · intro none r mem free
      exact none r ⟨by simpa using accepted, Clock.slots_lt pos mem, free⟩

lemma queue_evicted (e' : CacheEntry) {taken} (accepted : e.evictionRefused = false)
    (refused : e'.evictionRefused = e.evictionRefused) (config : e'.config = e.config)
    (size : e'.size = e.size) (pins : e'.regionPins = e.regionPins)
    (hand : e'.clockHand = e.swept.1.hand) (bits : e'.referenced = e.swept.1.referenced)
    (choice : e.swept.2 = taken)
    (pages : ∀ page < e.pageCount, e'.bitmap page =
      if e.bitmap page = .clean ∧ taken = some (e.pageBlock page) then .missing
      else e.bitmap page) :
    taken = (Clock.chance e.queue).1 ∧ e'.queue = (Clock.chance e.queue).2 := by
  have count : e'.regionCount = e.regionCount := by rw [regionCount, size, config, regionCount]
  have paged : e'.pageCount = e.pageCount := by rw [pageCount, size, pageCount]
  have pos : 0 < e.regionCount := by
    by_contra none
    rw [evictionRefused, show e.regionCount = 0 by omega] at accepted
    simp at accepted
  have without : ∀ r < e.regionCount,
      e'.evictable r = (e.evictable r && decide (e.swept.2 ≠ some r)) := by
    intro r inside
    rw [choice]
    by_cases same : taken = some r
    · rw [evictable_eq_false (by rwa [count]) fun page lt block => ?_, same]
      · simp
      · rw [paged] at lt
        rw [config] at block
        rw [pages page lt, block]
        by_cases clean : e.bitmap page = .clean
        · simp [clean, same]
        · simp [clean]
    · rw [evictable_congr inside config size pins fun page lt block => ?_]
      · simp [same]
      · rw [pages page lt, block]
        simp [same]
  have turned := Clock.sweep_queue pos ⟨e.clockHand, e.referenced⟩ without
  have now : e.queue = Clock.queue e.regionCount e.evictable ⟨e.clockHand, e.referenced⟩ := by
    rw [queue, if_neg (by simp [accepted])]
  have next : e'.queue = Clock.queue e.regionCount e'.evictable e.swept.1 := by
    rw [queue, if_neg (by simp [refused, accepted]), count, hand, bits]
  rw [now, next, ← choice]
  exact turned

end CacheEntry

open CacheEntry

structure Visited (c c' : Cached) (taken : Option Nat) : Prop where
  idle : c'.idle = c.idle
  metaBytes : c'.metaBytes = c.metaBytes
  config : c'.config = c.config
  size : c'.size = c.size
  pages : ∀ page < c.pageCount, c'.bitmap page =
    if c.bitmap page = .clean ∧ taken = some (c.pageBlock page)
    then .missing else c.bitmap page
  regions : ∀ r, c'.regionBytes r = if taken = some r then 0 else c.regionBytes r
  inside : ∀ r, taken = some r → r < c.regionCount
  chosen : taken = (Clock.chance c.entry.queue).1
  queue : c'.entry.queue = (Clock.chance c.entry.queue).2

namespace Cached

variable {c : Cached}

lemma visited_refused (refused : c.evictionRefused = true) : Visited c c none := by
  have empty : c.entry.queue = [] := by rw [queue, if_pos refused]
  refine ⟨rfl, rfl, rfl, rfl, fun page _ => by simp, fun r => by simp, nofun, ?_, ?_⟩
  all_goals
    rw [empty]
    rfl

lemma visited_none (accepted : c.evictionRefused = false) (choice : c.swept.2 = none) :
    Visited c { c with entry := c.scanned } none := by
  obtain ⟨chosen, queue⟩ := queue_evicted c.scanned accepted rfl rfl rfl rfl
    rfl rfl choice fun page _ => by simp [scanned]
  exact ⟨rfl, rfl, rfl, rfl, fun page _ => by simp [scanned], fun r => by simp, nofun,
    chosen, queue⟩

lemma visited_some {r} (accepted : c.evictionRefused = false)
    (choice : c.swept.2 = some r) (tokens : Nat) :
    Visited c
      (punch { c with
        entry := { c.scanned with
          bitmap := setPages c.bitmap (c.cleanPages r) .missing
          waitTokens := tokens } } (r * c.blockSize)) (some r) := by
  have pos : 0 < c.regionCount := by
    by_contra none
    rw [evictionRefused, show c.regionCount = 0 by omega] at accepted
    simp at accepted
  have inside : r < c.regionCount := by
    obtain ⟨referenced, clockHand, -, chooses⟩ :=
      clockScan_spec (e := c.entry) c.regionCount
    rw [clockScan_eq] at chooses
    exact (chooses r choice pos).1
  have pages : ∀ page < c.pageCount,
      setPages c.bitmap (c.cleanPages r) .missing page =
      if c.bitmap page = .clean ∧
        some r = some (c.pageBlock page) then .missing
      else c.bitmap page := by
    intro page lt
    rw [setPages_apply]
    simp only [mem_cleanPages (lt_regionCount.1 inside), Option.some_inj]
    refine if_congr ?_ rfl rfl
    exact ⟨fun h => ⟨h.2.2, h.2.1.symm⟩, fun h => ⟨lt, h.2.symm, h.1⟩⟩
  obtain ⟨chosen, queue⟩ := queue_evicted
    { c.scanned with
      bitmap := setPages c.bitmap (c.cleanPages r) .missing
      waitTokens := tokens } accepted rfl rfl rfl rfl rfl rfl choice pages
  refine ⟨rfl, rfl, rfl, rfl, pages, fun s => ?_, ?_, chosen, queue⟩
  · have place : r * c.blockSize / c.blockSize = r :=
      Nat.mul_div_cancel _ c.block_pos
    show Function.update c.regionBytes (r * c.blockSize / c.blockSize) 0
        s =
      if some r = some s then 0 else c.regionBytes s
    rw [place]
    by_cases same : s = r
    · simp [same]
    · simp [same, Ne.symm same]
  · rintro s ⟨⟩
    exact inside

lemma evictOneRegion_visited (c : Cached) : ∃ taken, Visited c c.evictOneRegion.1 taken := by
  cases refused : c.evictionRefused with
  | true =>
    rw [evictOneRegion, CacheEntry.evictOneRegion, if_pos refused]
    exact ⟨none, visited_refused refused⟩
  | false =>
    rw [evictOneRegion, CacheEntry.evictOneRegion, if_neg (by simp [refused]),
      clockScan_eq]
    cases choice : c.swept.2 with
    | none => exact ⟨none, visited_none refused choice⟩
    | some r =>
      exact ⟨some r, visited_some refused choice (c.waitTokens + c.waiters)⟩

lemma claimLiveRegion_cases (c : Cached) :
    (∃ c', c.claimLiveRegion = (c', none) ∧ Visited c c' none) ∨
    ∃ c' ev c'' r, c.claimLiveRegion = (c', some ev) ∧ c'.punched ev = some c'' ∧
      c'.dataBytes = c.dataBytes ∧ Visited c c'' (some r) := by
  rw [claimLiveRegion, CacheEntry.claimLiveRegion]
  cases refused : c.evictionRefused with
  | true => exact .inl ⟨c, rfl, visited_refused refused⟩
  | false =>
    rw [if_neg Bool.false_ne_true, clockScan_eq]
    cases choice : c.swept.2 with
    | none => exact .inl ⟨_, rfl, visited_none refused choice⟩
    | some r =>
      have visited := visited_some refused choice (c.waitTokens + c.waiters)
      refine .inr ⟨_, _, _, r, rfl, ?_, rfl, visited⟩
      have marked : ∀ page ∈ c.cleanPages r,
          setPages c.bitmap (c.cleanPages r) .readPending page =
            .readPending := by
        intro page mem
        rw [setPages_apply, if_pos mem]
      have settled : setPages
          (setPages c.bitmap (c.cleanPages r) .readPending)
          (c.cleanPages r) .missing =
          setPages c.bitmap (c.cleanPages r) .missing := by
        funext page
        simp only [setPages_apply]
        split <;> rfl
      have finished : finishPages .missing (c.cleanPages r) _ = some _ :=
        finishPages_eq (nodup_cleanPages c.entry r) marked
      rw [settled] at finished
      show Option.map _ (Option.map _ (finishPages .missing (c.cleanPages r)
        (setPages c.bitmap (c.cleanPages r) .readPending))) = _
      rw [finished]
      rfl

lemma clearedBy_iff (c : Cached) (regions : List Nat) :
    c.clearedBy regions = true ↔ c.idle = true ∧ ∀ page < c.pageCount,
      c.bitmap page = .missing ∨ (c.bitmap page = .clean ∧
        c.pageBlock page ∈ regions) := by
  simp [clearedBy]

lemma clearedBy_nil (c : Cached) : c.clearedBy [] = c.reclaimable := by
  simp [clearedBy, reclaimable]

lemma gain_nil (c : Cached) : c.gain [] = if c.reclaimable then c.bytes else 0 := by
  rw [gain, clearedBy_nil]
  rfl

lemma gain_of_reclaimable (closed : c.reclaimable = true) (regions : List Nat) :
    c.gain regions = c.bytes := by
  have cleared : c.clearedBy regions = true := by
    rw [← clearedBy_nil, clearedBy_iff] at closed
    rw [clearedBy_iff]
    exact ⟨closed.1, fun page lt => .inl ((closed.2 page lt).resolve_right (by simp))⟩
  rw [gain, if_pos cleared]

lemma gain_perm (c : Cached) {regions regions'} (perm : regions.Perm regions') :
    c.gain regions = c.gain regions' := by
  have cleared : c.clearedBy regions = c.clearedBy regions' := by
    simp only [clearedBy, perm.mem_iff]
  rw [gain, cleared, (perm.map _).sum_eq, gain]

lemma queue_of_reclaimable (closed : c.reclaimable = true) : c.entry.queue = [] := by
  rw [← clearedBy_nil, clearedBy_iff] at closed
  rw [queue_eq_nil_iff]
  rintro r ⟨-, inside, free⟩
  rw [evictable_eq_false inside fun page lt _ => ?_] at free
  · cases free
  · rw [(closed.2 page lt).resolve_right (by simp)]
    nofun

lemma nodup_queue (e : CacheEntry) : (e.queue.map Prod.fst).Nodup := by
  rw [queue]
  split
  · exact nodup_nil
  · exact Clock.nodup_queue _ _

end Cached

namespace Visited
variable {c c' : Cached} {taken : Option Nat}

section
variable (v : Visited c c' taken)
include v

lemma regionCount : c'.regionCount = c.regionCount := by
  rw [CacheEntry.regionCount, v.size, v.config, CacheEntry.regionCount]

lemma dataBytes : c'.dataBytes + (taken.toList.map c.regionBytes).sum = c.dataBytes := by
  rw [Cached.dataBytes, v.regionCount, Cached.dataBytes]
  cases taken with
  | none =>
    have same : c'.regionBytes = c.regionBytes := funext fun r => by simpa using v.regions r
    rw [same]
    rfl
  | some r =>
    have inside := v.inside r rfl
    have holed : (List.range c.regionCount).map c'.regionBytes =
        ((List.range c.regionCount).map c.regionBytes).set r 0 := by
      refine ext_getElem (by simp) fun s lt lt' => ?_
      rw [getElem_set, getElem_map, getElem_map, getElem_range, v.regions s]
      simp
    have found : ((List.range c.regionCount).map c.regionBytes)[r]? =
        some (c.regionBytes r) := by
      simp [inside]
    have sums := Sums.sum_map_set id 0 found
    rw [map_id, map_id] at sums
    rw [holed]
    simpa using sums

lemma freed : c.dataBytes - c'.dataBytes = (taken.toList.map c.regionBytes).sum := by
  have := v.dataBytes
  omega

lemma clearedBy (regions : List Nat) :
    c'.clearedBy regions = c.clearedBy (taken.toList ++ regions) := by
  have paged : c'.pageCount = c.pageCount := by
    rw [pageCount, v.size, pageCount]
  rw [Bool.eq_iff_iff, clearedBy_iff, clearedBy_iff, v.idle, paged, v.config]
  refine and_congr_right fun _ => forall₂_congr fun page lt => ?_
  rw [v.pages page lt, mem_append, Option.mem_toList]
  by_cases clean : c.bitmap page = .clean
  · by_cases mine : taken = some (c.pageBlock page)
    all_goals simp [clean, mine]
  · simp [clean]

lemma gain {regions} (other : ∀ r, taken = some r → r ∉ regions) :
    (taken.toList.map c.regionBytes).sum + c'.gain regions = c.gain (taken.toList ++ regions) := by
  rw [Cached.gain, v.clearedBy, Cached.gain]
  split
  · rw [bytes, bytes, v.metaBytes, ← v.dataBytes]
    omega
  · have same : regions.map c'.regionBytes = regions.map c.regionBytes := by
      refine map_congr_left fun r mem => ?_
      rw [v.regions r, if_neg fun took => other r took mem]
    rw [same, map_append, List.sum_append]

lemma takes (k : Nat) :
    (taken.toList.map c.regionBytes).sum + c'.gain (Clock.takes k c'.entry.queue) =
      c.gain (Clock.takes (k + 1) c.entry.queue) := by
  rw [v.queue, Clock.takes, ← v.chosen]
  refine v.gain fun r took => ?_
  exact (Clock.chance_notMem (nodup_queue c.entry) (v.chosen.symm.trans took)).2 k

lemma all :
    (taken.toList.map c.regionBytes).sum + c'.gain (c'.entry.queue.map Prod.fst) =
      c.gain (c.entry.queue.map Prod.fst) := by
  rw [v.queue, c.gain_perm (Clock.chance_perm _), ← v.chosen]
  refine v.gain fun r took => ?_
  exact (Clock.chance_notMem (nodup_queue c.entry) (v.chosen.symm.trans took)).1

end

end Visited

namespace Room
variable {r : Room} {bytes : Nat}

lemma give_give (r : Room) (a b : Nat) : (r.give a).give b = r.give (a + b) := by
  simp only [give, Nat.sub_sub, Nat.add_assoc]

lemma grants_mono {a b} (le : a ≤ b) (grants : (r.give a).grants bytes = true) :
    (r.give b).grants bytes = true := by
  simp only [Room.grants, fits, Bool.or_eq_true, Bool.and_eq_true, decide_eq_true_eq,
    beq_iff_eq] at grants ⊢
  refine grants.imp_right fun fits => ?_
  simp only [give] at fits ⊢
  omega

end Room

/-- The reservation fitted after a part of the bytes, or it does not fit after all of them. -/
def Tried (bytes : Nat) (room : Room) (total : Nat) (room' : Room) : Bool → Prop
  | true => ∃ n ≤ total, (room.give n).grants bytes = true
  | false => room' = room.give total ∧ room'.grants bytes = false

namespace Tried
variable {bytes total more : Nat} {room room' room'' : Room} {reserved : Bool}

lemma start (short : room.grants bytes = false) : Tried bytes room 0 room false := ⟨rfl, short⟩

lemma trans (first : Tried bytes room total room' false)
    (second : Tried bytes room' more room'' reserved) :
    Tried bytes room (total + more) room'' reserved := by
  obtain ⟨rfl, -⟩ := first
  cases reserved with
  | true =>
    obtain ⟨n, le, grants⟩ := second
    rw [Room.give_give] at grants
    exact ⟨total + n, Nat.add_le_add_left le _, grants⟩
  | false =>
    obtain ⟨rfl, short⟩ := second
    exact ⟨Room.give_give .., short⟩

lemma within (done : Tried bytes room total room' true) (le : total ≤ more) :
    Tried bytes room more room' true := by
  obtain ⟨n, small, grants⟩ := done
  exact ⟨n, le_trans small le, grants⟩

lemma grants_iff (tried : Tried bytes room total room' reserved) :
    (room.give total).grants bytes = reserved := by
  cases reserved with
  | true =>
    obtain ⟨n, le, grants⟩ := tried
    exact Room.grants_mono le grants
  | false =>
    obtain ⟨rfl, short⟩ := tried
    exact short

end Tried

def Cached.harvest (k : Nat) (c : Cached) : Nat := c.gain (Clock.takes k c.entry.queue)

def Bare (entries : List Cached) : Prop := ∀ c ∈ entries, c.entry.queue = []

lemma evictLive_spec (bytes : Nat) : ∀ (attempts index : Nat) (room : Room) (entries : List Cached)
    (visits : List (Cached × Nat)), Clock.Fair visits → entries.rotate index = visits.map Prod.fst →
    attempts = (visits.map Prod.snd).sum → room.grants bytes = false →
    ∃ room' entries' reserved n,
      evictLive bytes attempts index room entries = some (room', entries', reserved) ∧
      Tried bytes room n room' reserved ∧ n ≤ (visits.map fun v => v.1.harvest v.2).sum ∧
      (reserved = false →
        n + (entries'.map fun c => c.gain []).sum = (visits.map fun v => v.1.harvest v.2).sum ∧
        (Bare entries' ↔ ∀ v ∈ visits, Clock.leaves v.2 v.1.entry.queue = [])) := by
  intro attempts
  induction attempts with
  | zero =>
    intro index room entries visits fair turned none short
    have zero : ∀ v ∈ visits, v.2 = 0 := by
      intro v mem
      have := single_le_sum (l := visits.map Prod.snd) (fun _ _ => zero_le _) v.2
        (mem_map_of_mem mem)
      omega
    have perm : entries.Perm (visits.map Prod.fst) := turned ▸ (rotate_perm entries index).symm
    refine ⟨room, entries, false, 0, rfl, .start short, zero_le _, fun _ => ⟨?_, ?_⟩⟩
    · rw [zero_add, (perm.map _).sum_eq, map_map]
      refine congrArg List.sum (map_congr_left fun v mem => ?_)
      rw [zero v mem]
      rfl
    · constructor
      · intro bare v mem
        rw [zero v mem]
        exact bare v.1 (perm.mem_iff.2 (mem_map_of_mem mem))
      · intro empty c mem
        obtain ⟨v, there, rfl⟩ := mem_map.1 (perm.mem_iff.1 mem)
        have left := empty v there
        rw [zero v there] at left
        exact left
  | succ attempts ih =>
    intro index room entries visits fair turned all short
    obtain ⟨c, k, rest, rfl, next⟩ := fair.next (by omega)
    have nonempty : 0 < entries.length := by
      rw [← length_rotate entries index, turned]
      exact zero_lt_succ _
    obtain ⟨a, found⟩ : ∃ a, entries[index % entries.length]? = some a :=
      ⟨_, List.getElem?_eq_getElem (mod_lt _ nonempty)⟩
    -- the next entry in the round is the first of the visits
    have moved (b : Cached) : a = c ∧
        (entries.set (index % entries.length) b).rotate (index + 1) =
          (rest ++ [(b, k)]).map Prod.fst := by
      obtain ⟨tail, here, turn⟩ := Clock.rotate_set found b
      obtain ⟨rfl, rfl⟩ := List.cons.inj (here.symm.trans turned)
      exact ⟨rfl, by rw [turn, map_append]; rfl⟩
    obtain rfl := (moved c).1
    have fewer (b : Cached) : attempts = ((rest ++ [(b, k)]).map Prod.snd).sum := by
      simp only [map_cons, sum_cons, map_append, List.sum_append, map_nil, sum_nil] at all ⊢
      omega
    -- a visit gives some bytes, and the others are still to be got
    have visited {b : Cached} {taken : Option Nat} (v : Visited a b taken) :
        (taken.toList.map a.regionBytes).sum + ((rest ++ [(b, k)]).map fun v =>
        v.1.harvest v.2).sum =
          (((a, k + 1) :: rest).map fun v => v.1.harvest v.2).sum := by
      have := v.takes k
      simp only [map_append, List.sum_append, map_cons, sum_cons, map_nil, sum_nil, harvest]
      omega
    have left {b : Cached} {taken : Option Nat} (v : Visited a b taken) :
        (∀ v ∈ rest ++ [(b, k)], Clock.leaves v.2 v.1.entry.queue = []) ↔
          ∀ v ∈ (a, k + 1) :: rest, Clock.leaves v.2 v.1.entry.queue = [] := by
      rw [forall_mem_append, forall_mem_singleton, forall_mem_cons, v.queue]
      exact and_comm
    rw [evictLive, found]
    obtain ⟨b, claimed, v⟩ | ⟨b', ev, b, r, claimed, punched, size, v⟩ := a.claimLiveRegion_cases
    · obtain ⟨room', entries', reserved, n, ran, tried, le, rest⟩ :=
        ih (index + 1) room _ _ (next b) (moved b).2 (fewer b) short
      have total := visited v
      rw [Option.toList_none, map_nil, sum_nil, zero_add] at total
      refine ⟨room', entries', reserved, n, by simp only [claimed]; exact ran, tried, total ▸ le,
        fun failed => ?_⟩
      rw [← total, ← left v]
      exact rest failed
    · simp only [claimed, punched, size, v.freed]
      set freed := ((some r).toList.map a.regionBytes).sum
      have total := visited v
      cases granted : (room.give freed).grants bytes with
      | true =>
        rw [Room.tryReserveCapacity, if_pos granted]
        exact ⟨_, _, true, freed, rfl, ⟨freed, le_refl _, granted⟩, by omega, nofun⟩
      | false =>
        rw [Room.tryReserveCapacity, if_neg (by simp [granted])]
        obtain ⟨room', entries', reserved, n, ran, tried, le, rest⟩ :=
          ih (index + 1) _ _ _ (next b) (moved b).2 (fewer b) granted
        have first : Tried bytes room freed (room.give freed) false := ⟨rfl, granted⟩
        refine ⟨room', entries', reserved, freed + n, ran, first.trans tried, by omega,
          fun failed => ?_⟩
        rw [← left v, ← total, Nat.add_assoc]
        exact ⟨congrArg _ (rest failed).1, (rest failed).2⟩

lemma bare_append {entries entries'} :
    Bare (entries ++ entries') ↔ Bare entries ∧ Bare entries' := forall_mem_append

lemma reclaimClosed_spec {bytes} (left : List Cached) : ∀ (room : Room) (kept : List Cached),
    room.grants bytes = false →
    Tried bytes room (left.map fun c => c.gain []).sum (reclaimClosed bytes room kept left).1
        (reclaimClosed bytes room kept left).2.2 ∧
      ((reclaimClosed bytes room kept left).2.2 = false →
        (Bare (reclaimClosed bytes room kept left).2.1 ↔ Bare (kept ++ left))) := by
  induction left with
  | nil =>
    intro room kept short
    exact ⟨.start short, fun _ => by rw [append_nil]; rfl⟩
  | cons c left ih =>
    intro room kept short
    rw [reclaimClosed, map_cons, sum_cons, gain_nil]
    cases closed : c.reclaimable with
    | true =>
      have gone : Bare (kept ++ c :: left) ↔ Bare (kept ++ left) := by
        rw [bare_append, bare_append]
        refine and_congr_right fun _ => ?_
        exact forall_mem_cons.trans (and_iff_right (queue_of_reclaimable closed))
      rw [if_pos rfl, if_pos rfl, gone]
      cases granted : (room.give c.bytes).grants bytes with
      | true =>
        rw [Room.tryReserveCapacity, if_pos granted]
        exact ⟨⟨c.bytes, le_add_right _ _, granted⟩, nofun⟩
      | false =>
        rw [Room.tryReserveCapacity, if_neg (by simp [granted])]
        have first : Tried bytes room c.bytes (room.give c.bytes) false := ⟨rfl, granted⟩
        obtain ⟨tried, bare⟩ := ih _ kept granted
        exact ⟨first.trans tried, bare⟩
    | false =>
      rw [if_neg Bool.false_ne_true, if_neg Bool.false_ne_true, zero_add]
      obtain ⟨tried, bare⟩ := ih room (kept ++ [c]) short
      rw [append_assoc] at bare
      exact ⟨tried, bare⟩

lemma visitAll_spec (bytes : Nat) {room} (entries : List Cached) (index : Nat)
    (short : room.grants bytes = false) :
    ∃ room' entries' reserved,
      evictLive bytes (entries.length * 2) index room entries = some (room', entries', reserved) ∧
      (reserved = true → Tried bytes room (entries.map twoVisits).sum room' true) ∧
      (reserved = false → Tried bytes room (entries.map twoVisits).sum
            (reclaimClosed bytes room' [] entries').1
          (reclaimClosed bytes room' [] entries').2.2 ∧
        ((reclaimClosed bytes room' [] entries').2.2 = false →
          (Bare (reclaimClosed bytes room' [] entries').2.1 ↔
            ∀ c ∈ entries, Clock.Brief c.entry.queue))) := by
  have turned : entries.rotate index = ((entries.rotate index).map (·, 2)).map Prod.fst := by
    rw [map_map]
    exact (map_id _).symm
  have twice : entries.length * 2 = (((entries.rotate index).map (·, 2)).map Prod.snd).sum := by
    rw [map_map, ← length_rotate entries index]
    generalize entries.rotate index = l
    induction l with
    | nil => rfl
    | cons a l ih =>
      rw [length_cons, map_cons, sum_cons, ← ih, add_one_mul, add_comm]
      rfl
  have total : (((entries.rotate index).map (·, 2)).map fun v => v.1.harvest v.2).sum =
      (entries.map twoVisits).sum := by
    rw [map_map, ← ((rotate_perm entries index).map twoVisits).sum_eq]
    refine congrArg List.sum (map_congr_left fun c _ => ?_)
    rw [twoVisits, Clock.firstTwo_eq]
    rfl
  have brief : (∀ v ∈ (entries.rotate index).map (·, 2), Clock.leaves v.2 v.1.entry.queue = []) ↔
      ∀ c ∈ entries, Clock.Brief c.entry.queue := by
    rw [forall_mem_map]
    simp only [mem_rotate, Clock.leaves_eq_nil_iff]
  obtain ⟨room', entries', reserved, n, ran, tried, le, failed⟩ := evictLive_spec bytes _ index room
    entries _ (Clock.fair_all _ 2) turned twice short
  rw [total, brief] at failed
  refine ⟨room', entries', reserved, ran, ?_, ?_⟩
  · rintro rfl
    exact tried.within (total ▸ le)
  · rintro rfl
    obtain ⟨rest, bare⟩ := failed rfl
    obtain ⟨reclaimed, bare'⟩ := reclaimClosed_spec entries' room' [] tried.2
    rw [← rest]
    exact ⟨tried.trans reclaimed, fun short => (bare' short).trans bare⟩

lemma scanCold_spec (bytes : Nat) (cold : List Cached) : ∀ (room : Room) (entries : List Cached),
    room.grants bytes = false →
    ∃ room' entries' cold' reserved,
      scanCold bytes room entries cold = some (room', entries', cold', reserved) ∧
      Tried bytes room (cold.map twoVisits).sum room' reserved ∧
      (reserved = false →
        (Bare entries' ↔ Bare entries ∧ ∀ c ∈ cold, Clock.Brief c.entry.queue)) := by
  induction cold with
  | nil =>
    intro room entries short
    exact ⟨room, entries, [], false, rfl, .start short, fun _ => by simp⟩
  | cons c cold ih =>
    intro room entries short
    rw [scanCold, map_cons, sum_cons]
    obtain ⟨room', own, reserved, ran, granted, failed⟩ := visitAll_spec bytes [c] 0 short
    rw [show [c].length * 2 = 2 from rfl] at ran
    rw [map_singleton, sum_singleton] at granted failed
    rw [ran]
    cases reserved with
    | true =>
      refine ⟨_, _, _, true, rfl, (granted rfl).within (le_add_right _ _), nofun⟩
    | false =>
      obtain ⟨tried, bare⟩ := failed rfl
      rcases reclaimed : reclaimClosed bytes room' [] own with ⟨room'', own', reserved⟩
      rw [reclaimed] at tried bare
      simp only [reclaimed]
      cases reserved with
      | true =>
        refine ⟨_, _, _, true, rfl, tried.within (le_add_right _ _), nofun⟩
      | false =>
        obtain ⟨room₃, entries', cold', reserved, ran, rest, left⟩ :=
          ih room'' (entries ++ own') tried.2
        refine ⟨room₃, entries', cold', reserved, ran, tried.trans rest, fun failed => ?_⟩
        rw [left failed, bare_append, bare rfl, forall_mem_singleton, forall_mem_cons, and_assoc]

namespace Store

def twoVisits (s : Store) : Nat := ((s.entries ++ s.cold).map Cached.twoVisits).sum

/-- The operation fails exactly if what two visits give is not enough, and then it leaves nothing to
evict exactly if two visits are enough for every entry. -/
lemma reserveAsync_spec (s : Store) (bytes : Nat) :
    ((s.reserveAsync bytes).2 = .enospc ↔ (s.room.give s.twoVisits).grants bytes = false) ∧
    ((s.reserveAsync bytes).2 = .enospc → (Bare (s.reserveAsync bytes).1.entries ↔
        ∀ c ∈ s.entries ++ s.cold, Clock.Brief c.entry.queue)) := by
  have decided {room' : Room} {reserved : Bool}
      (tried : Tried bytes s.room s.twoVisits room' reserved) :
      (s.room.give s.twoVisits).grants bytes = reserved := tried.grants_iff
  have sum : s.twoVisits =
      (s.entries.map Cached.twoVisits).sum + (s.cold.map Cached.twoVisits).sum := by
    rw [twoVisits, map_append, List.sum_append]
  rw [reserveAsync]
  cases granted : s.room.grants bytes with
  | true =>
    rw [Room.tryReserveCapacity, if_pos granted,
      decided (show Tried bytes s.room s.twoVisits s.room true from ⟨0, zero_le _, granted⟩)]
    exact ⟨by simp, nofun⟩
  | false =>
    rw [Room.tryReserveCapacity, if_neg (by simp [granted])]
    obtain ⟨room', entries', reserved, ran, reserves, failed⟩ :=
      visitAll_spec bytes s.entries (s.clockEntry % s.entries.length) granted
    simp only [ran]
    cases reserved with
    | true =>
      have := decided ((reserves rfl).within (sum ▸ le_add_right _ _))
      exact ⟨by simp [this], nofun⟩
    | false =>
      obtain ⟨tried, bare⟩ := failed rfl
      rcases reclaimed : reclaimClosed bytes room' [] entries' with ⟨room'', kept, reserved⟩
      rw [reclaimed] at tried bare
      simp only [reclaimed]
      cases reserved with
      | true =>
        have := decided (tried.within (sum ▸ le_add_right _ _))
        exact ⟨by simp [this], nofun⟩
      | false =>
        obtain ⟨room₃, entries₃, cold', reserved, scanned, rest, left⟩ :=
          scanCold_spec bytes s.cold room'' kept tried.2
        have whole := tried.trans rest
        rw [← sum] at whole
        simp only [scanned]
        rw [decided whole]
        cases reserved with
        | true => exact ⟨by simp, nofun⟩
        | false =>
          refine ⟨by simp, fun _ => ?_⟩
          rw [forall_mem_append, ← bare rfl]
          exact left rfl

end Store

namespace Cached

def worth (c : Cached) : Nat := c.gain (c.entry.queue.map Prod.fst)

def work (c : Cached) : Nat := c.entry.queue.length + 1

lemma twoVisits_of_brief {c : Cached} (brief : Clock.Brief c.entry.queue) :
    c.twoVisits = c.worth := by
  have perm := Clock.takes_perm 2 c.entry.queue
  rw [(Clock.leaves_eq_nil_iff _).2 brief, map_nil, append_nil] at perm
  rw [twoVisits, Clock.firstTwo_eq, worth, c.gain_perm perm]

end Cached

/-- What it gives back was to be got, and if it says that it has made progress there is less to do.
-/
structure Progress (room : Room) (worth work : Nat) (room' : Room) (worth' work' : Nat)
    (progress : Bool) : Prop where
  given : ∃ n, room' = room.give n ∧ n + worth' = worth
  less : work' ≤ work
  progress : progress = true → work' < work

namespace Progress
variable {room room' room'' : Room} {worth work worth' work' worth'' work'' : Nat} {progress : Bool}

lemma none : Progress room worth work room worth work false :=
  ⟨⟨0, rfl, zero_add _⟩, le_refl _, nofun⟩

lemma trans (first : Progress room worth work room' worth' work' false)
    (second : Progress room' worth' work' room'' worth'' work'' progress) :
    Progress room worth work room'' worth'' work'' progress := by
  obtain ⟨n, rfl, given⟩ := first.given
  obtain ⟨m, rfl, given'⟩ := second.given
  refine ⟨⟨n + m, Room.give_give .., by omega⟩, le_trans second.less first.less, fun h => ?_⟩
  exact lt_of_lt_of_le (second.progress h) first.less

lemma beside (h : Progress room worth work room' worth' work' progress) (a b c d : Nat) :
    Progress room (a + worth + b) (c + work + d) room' (a + worth' + b)
        (c + work' + d) progress := by
  obtain ⟨n, rfl, given⟩ := h.given
  have less := h.less
  exact ⟨⟨n, rfl, by omega⟩, by omega, fun p => by have := h.progress p; omega⟩

end Progress

def worths (entries : List Cached) : Nat := (entries.map worth).sum

def works (entries : List Cached) : Nat := (entries.map work).sum

lemma progress_visit (room : Room) {entries i c} (found : entries[i]? = some c) :
    Progress room (worths entries) (works entries) (room.give c.evictOneRegion.2)
      (worths (entries.set i c.evictOneRegion.1)) (works (entries.set i c.evictOneRegion.1))
      (decide (c.evictOneRegion.2 ≠ 0)) := by
  obtain ⟨taken, v⟩ := c.evictOneRegion_visited
  have freed : c.evictOneRegion.2 = (taken.toList.map c.regionBytes).sum := v.freed
  have size := (Clock.chance_perm c.entry.queue).length_eq
  rw [length_append, length_map, length_map, ← v.chosen, ← v.queue] at size
  have worth := Sums.sum_map_set Cached.worth c.evictOneRegion.1 found
  have work := Sums.sum_map_set Cached.work c.evictOneRegion.1 found
  have all := v.all
  rw [← Cached.worth, ← Cached.worth, ← freed] at all
  simp only [Cached.work] at work
  refine ⟨⟨_, rfl, ?_⟩, ?_, fun some => ?_⟩
  · rw [worths, worths]
    omega
  · rw [works, works]
    omega
  · cases taken with
    | none => exact absurd freed (of_decide_eq_true some)
    | some r =>
      rw [Option.toList_some, length_singleton] at size
      rw [works, works]
      omega

lemma evictPass_progress (places : List Nat) : ∀ (room : Room) (entries : List Cached),
    Progress room (worths entries) (works entries) (evictPass places room entries).1
      (worths (evictPass places room entries).2.1) (works (evictPass places room entries).2.1)
      (evictPass places room entries).2.2 := by
  induction places with
  | nil => exact fun _ _ => .none
  | cons i places ih =>
    intro room entries
    rw [evictPass]
    cases found : entries[i]? with
    | none => exact ih room entries
    | some c =>
      have visit := progress_visit room found
      dsimp only
      split
      · next freed =>
        rw [decide_eq_true freed] at visit
        exact visit
      · next nothing =>
        rw [decide_eq_false nothing] at visit
        rw [Decidable.not_not.1 nothing] at visit
        exact visit.trans (ih room _)

lemma reclaimOne_progress (places : List Nat) (room : Room) (entries : List Cached) :
    Progress room (worths entries) (works entries) (reclaimOne places room entries).1
      (worths (reclaimOne places room entries).2.1) (works (reclaimOne places room entries).2.1)
      (reclaimOne places room entries).2.2 := by
  induction places with
  | nil => exact .none
  | cons i places ih =>
    rw [reclaimOne]
    cases found : entries[i]? with
    | none => exact ih
    | some c =>
      dsimp only
      split
      · next closed =>
        have worth := Sums.sum_map_eraseIdx worth found
        have work := Sums.sum_map_eraseIdx work found
        rw [show c.worth = c.bytes from gain_of_reclaimable closed _] at worth
        have some : 0 < c.work := zero_lt_succ _
        have fewer : works (entries.eraseIdx i) < works entries := by
          rw [works, works]
          omega
        exact ⟨⟨c.bytes, rfl, worth⟩, le_of_lt fewer, fun _ => fewer⟩
      · exact ih

def coldWorks (cold : List Cached) : Nat := (cold.map fun c => c.work + 1).sum

lemma evictCold_progress (cold : List Cached) : ∀ (room : Room) (entries : List Cached),
    Progress room (worths entries + worths cold) (works entries + coldWorks cold)
      (evictCold room entries cold).1
      (worths (evictCold room entries cold).2.1 + worths (evictCold room entries cold).2.2.1)
      (works (evictCold room entries cold).2.1 + coldWorks (evictCold room entries cold).2.2.1)
      (evictCold room entries cold).2.2.2 := by
  induction cold with
  | nil => exact fun _ _ => .none
  | cons c cold ih =>
    intro room entries
    have worth : worths entries + worths (c :: cold) = worths entries + worths
        [c] + worths cold := by
      simp only [worths, map_cons, sum_cons, map_nil, sum_nil]
      omega
    have work : works entries + works [c] + coldWorks cold < works entries + coldWorks
        (c :: cold) := by
      simp only [works, coldWorks, map_cons, sum_cons, map_nil, sum_nil]
      omega
    have joined (own : List Cached) : worths (entries ++ own) = worths entries + worths own ∧
        works (entries ++ own) = works entries + works own := by
      simp only [worths, works, map_append, List.sum_append, and_self]
    have opened : Progress room (worths entries + worths (c :: cold))
        (works entries + coldWorks (c :: cold)) room (worths entries + worths [c] + worths cold)
        (works entries + works [c] + coldWorks cold) false :=
      ⟨⟨0, rfl, by omega⟩, le_of_lt work, nofun⟩
    rw [evictCold]
    have passed := evictPass_progress [0, 0] room [c]
    generalize evictPass [0, 0] room [c] = out at passed ⊢
    obtain ⟨room', own, progress⟩ := out
    have passed := opened.trans
      (passed.beside (worths entries) (worths cold) (works entries) (coldWorks cold))
    cases progress with
    | true =>
      rw [(joined own).1, (joined own).2]
      exact passed
    | false =>
      have reclaimed := reclaimOne_progress [0] room' own
      dsimp only
      generalize reclaimOne [0] room' own = out at reclaimed ⊢
      obtain ⟨room'', own', progress⟩ := out
      have both := passed.trans
        (reclaimed.beside (worths entries) (worths cold) (works entries) (coldWorks cold))
      rw [← (joined own').1, ← (joined own').2] at both
      cases progress with
      | true => exact both
      | false => exact both.trans (ih room'' _)

namespace Store

def worth (s : Store) : Nat := worths s.entries + worths s.cold

def work (s : Store) : Nat := works s.entries + coldWorks s.cold

lemma evictOne_progress (s : Store) :
    Progress s.room s.worth s.work s.evictOne.1.room s.evictOne.1.worth s.evictOne.1.work
      s.evictOne.2 := by
  rw [evictOne]
  split
  · exact .none
  have ticked : s.tick.cold = s.cold := by
    rw [tick]
    split <;> rfl
  dsimp only
  generalize (List.range s.entries.length).map (fun n => (s.clockEntry + n) % s.entries.length) =
    places
  have passed := (evictPass_progress (places ++ places) s.room s.entries).beside 0 (worths s.cold) 0
    (coldWorks s.cold)
  simp only [zero_add] at passed
  generalize evictPass (places ++ places) s.room s.entries = out at passed ⊢
  obtain ⟨room, entries, progress⟩ := out
  cases progress with
  | true =>
    rw [worth, work, worth, work]
    rw [ticked]
    exact passed
  | false =>
    have reclaimed := (reclaimOne_progress places room entries).beside 0 (worths s.cold) 0
      (coldWorks s.cold)
    simp only [zero_add] at reclaimed
    dsimp only
    generalize reclaimOne places room entries = out at reclaimed ⊢
    obtain ⟨room', entries', progress⟩ := out
    have both := passed.trans reclaimed
    cases progress with
    | true =>
      rw [worth, work, worth, work]
      rw [ticked]
      exact both
    | false => exact both.trans (evictCold_progress s.cold room' entries')

lemma reserveCapacity_spec (s : Store) (bytes : Nat) : ∃ fuel s' reserved n,
    s.reserveCapacity fuel bytes = some (s', reserved) ∧ n + s'.worth = s.worth ∧
    s'.room = { s.room.give n with pending := s.room.pending + if reserved then bytes else 0 } ∧
    if reserved then (s.room.give n).grants bytes = true
    else ∃ t : Store, t.room.grants bytes = false ∧ t.evictOne = (s', false) := by
  induction work : s.work using Nat.strong_induction_on generalizing s with
  | _ w ih =>
    cases granted : s.room.grants bytes with
    | true =>
      refine ⟨1, { s with room := { s.room with pending := s.room.pending + bytes } }, true, 0, ?_,
        zero_add _, rfl, granted⟩
      rw [reserveCapacity, Room.tryReserveCapacity, if_pos granted]
    | false =>
      have progress := s.evictOne_progress
      obtain ⟨n, given, rest⟩ := progress.given
      have first (fuel : Nat) : reserveCapacity (fuel + 1) s bytes =
          if s.evictOne.2 then reserveCapacity fuel s.evictOne.1 bytes
          else some (s.evictOne.1, false) := by
        rw [reserveCapacity, Room.tryReserveCapacity, if_neg (by simp [granted])]
        rcases s.evictOne with ⟨s', _ | _⟩ <;> rfl
      cases moved : s.evictOne.2 with
      | false =>
        exact ⟨1, s.evictOne.1, false, n, by rw [first, moved]; rfl, rest, given,
          s, granted, Prod.ext rfl moved⟩
      | true =>
        have less := progress.progress moved
        obtain ⟨fuel, s', reserved, m, ran, left, room, limits⟩ :=
          ih s.evictOne.1.work (by omega) s.evictOne.1 rfl
        rw [given, Room.give_give] at room limits
        exact ⟨fuel + 1, s', reserved, n + m, by rw [first, moved]; exact ran,
          by omega, room, limits⟩

lemma reserveCapacity_fails (s : Store) {bytes}
    (short : (s.room.give s.worth).grants bytes = false) :
    ∃ fuel s', reserveCapacity fuel s bytes = some (s', false) := by
  obtain ⟨fuel, s', reserved, n, ran, rest, -, limits⟩ := s.reserveCapacity_spec bytes
  cases reserved with
  | false => exact ⟨fuel, s', ran⟩
  | true =>
    have grants := Room.grants_mono (show n ≤ s.worth by omega) limits
    rw [short] at grants
    cases grants

end Store

/-- `reserve_capacity` ends, on every store. What it gives back was to be got from the entries; what
it reserves is within the limits, and it gives up when nothing is left to evict. -/
theorem reserveCapacity_ends (s : Store) (bytes : Nat) : ∃ fuel s' reserved n,
    s.reserveCapacity fuel bytes = some (s', reserved) ∧ n + s'.worth = s.worth ∧
    s'.room = { s.room.give n with pending := s.room.pending + if reserved then bytes else 0 } ∧
    if reserved then (s.room.give n).grants bytes = true
    else ∃ t : Store, t.room.grants bytes = false ∧ t.evictOne = (s', false) :=
  s.reserveCapacity_spec bytes

/-- The asynchronous reservation fails only if the synchronous one does and nothing is left to
evict, exactly if two visits of each entry give enough bytes, or evict everything that can be
evicted: an entry has at most one region that can be evicted, or two and the later one in clock
order was not referenced. -/
theorem reserveAsync_complete_iff (s : Store) (bytes : Nat) : ((s.reserveAsync bytes).2 = .enospc →
      (∃ fuel s', Store.reserveCapacity fuel s bytes = some (s', false)) ∧
      ∀ c ∈ (s.reserveAsync bytes).1.entries, ∀ region, ¬ c.Evictable region) ↔
    (s.room.give s.twoVisits).grants bytes = true ∨
      ∀ c ∈ s.entries ++ s.cold, Clock.Brief c.entry.queue := by
  obtain ⟨fails, bare⟩ := s.reserveAsync_spec bytes
  have evicted (entries : List Cached) :
      Bare entries ↔ ∀ c ∈ entries, ∀ region, ¬ c.Evictable region :=
    forall₂_congr fun c _ => c.queue_eq_nil_iff
  constructor
  · intro complete
    cases granted : (s.room.give s.twoVisits).grants bytes with
    | true => exact .inl rfl
    | false =>
      have enospc := fails.2 granted
      exact .inr ((bare enospc).1 ((evicted _).2 (complete enospc).2))
  · rintro (granted | brief) enospc
    · rw [fails, granted] at enospc
      cases enospc
    · refine ⟨?_, (evicted _).1 ((bare enospc).2 brief)⟩
      have all : s.twoVisits = s.worth := by
        rw [Store.twoVisits, Store.worth, worths, worths, ← List.sum_append, ← map_append]
        exact congrArg List.sum (map_congr_left fun c mem =>
            twoVisits_of_brief (brief c mem))
      exact s.reserveCapacity_fails (all ▸ fails.1 enospc)

/-- Three regions of one page each, all clean, none referenced. -/
def threeRegions : Cached where
  entry :=
    { config := ⟨kCacheBitmapUnit, false, by decide, dvd_rfl⟩
      size := 3 * kCacheBitmapUnit
      writtenEnd := 0
      epoch := 1
      bitmap := fun _ => .clean
      referenced := fun _ => false
      regionPins := fun _ => 0
      activeClaims := []
      checksumParts := []
      checksumStates := []
      nextClaimId := 0
      clockHand := 0
      checksumOps := 0
      pinnedRegions := 0
      checksumManifest := .unknown
      evictionDisabled := false
      detached := false
      stale := false
      dirty := false
      exported := false
      waiters := 0
      waitTokens := 0 }
  regionBytes := fun _ => kCacheBitmapUnit
  metaBytes := 0
  held := true

def fullStore : Store where
  room := ⟨false, 3 * kCacheBitmapUnit, 0, 3 * kCacheBitmapUnit, 0, 1000 * kCacheBitmapUnit⟩
  entries := [threeRegions]
  cold := []
  clockEntry := 0

/-- The operation evicts two of the regions and gives up; the synchronous function evicts all
three. -/
theorem reserveAsync_gives_up : (fullStore.reserveAsync (3 * kCacheBitmapUnit)).2 = .enospc ∧
    (∃ c ∈ (fullStore.reserveAsync (3 * kCacheBitmapUnit)).1.entries, c.Evictable 2) ∧
    (Store.reserveCapacity 5 fullStore (3 * kCacheBitmapUnit)).map Prod.snd = some true := by
  decide +kernel

end Ngs3fs.Cache
