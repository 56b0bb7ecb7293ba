import Ngs3fs.Cache.Wait
import Ngs3fs.Lib.Wake

/-!
# The waiters of an entry

The entry of `Cache.Write` together with everyone who waits on its event, in any interleaving: a
waiter tests its condition and registers under the entry's lock, takes a token outside it, and
leaves under the lock again, to test its condition once more. A waiter is stranded if its condition
holds, it is blocked, and there is no token. `Orderly` excludes what strands one. -/

namespace Ngs3fs.Cache
open Wake Machine List Option

structure Waits where
  sys : Sys
  waiters : List (Waiter Condition)

inductive WaitAction where
  /-- a call under the entry's lock, or an access to the data file -/
  | call (act : EntryAction)
  /-- a waiter tests its condition, and registers if it is false -/
  | wait (c : Condition)
  /-- the read of the event returns to the waiter at a place -/
  | take (i : Nat)
  /-- a waiter that has its token takes the lock and leaves -/
  | leave (i : Nat)
  /-- the read of the event fails, or the request is cancelled -/
  | quit (i : Nat)

/-- The first test of a retry takes the pages or the part back from readers. Only a retired
generation is waited for to end. -/
def Sys.test (s : Sys) : Condition → Option Sys
  | .retry claim => step s (.beginRetry claim)
  | .checksumRetry claim => step s (.beginChecksumRetry claim)
  | .quiescent => if s.stale then some s else none
  | c => if c.inside s.entry then some s else none

namespace Waits

def after (s : Waits) (t : Sys) : Waits where
  sys := t
  waiters := notifyIf (decide (s.sys.waitTokens < t.waitTokens)) s.waiters

def without (s : Waits) (i : Nat) : Waits where
  sys := s.sys.withEntry { s.sys.entry with waiters := s.sys.waiters - 1 }
  waiters := s.waiters.eraseIdx i

/-- `wait_locked`, `begin_retry_wait` and `end_async_wait`. -/
def step (s : Waits) : WaitAction → Option Waits
  | .call act => (entryStep s.sys act).map s.after
  | .wait c => (s.sys.test c).map fun t =>
    if c.holds t.entry then s.after t
    else
      { sys := t.withEntry { t.entry with waiters := t.waiters + 1 }
        waiters := (s.after t).waiters ++ [.new c] }
  | .take i =>
    match s.waiters[i]? with
    | none => none
    | some w =>
      if w.blocked ∧ 0 < s.sys.waitTokens then
        some
          { sys := s.sys.withEntry { s.sys.entry with waitTokens := s.sys.waitTokens - 1 }
            waiters := wakeAt i s.waiters }
      else none
  | .leave i =>
    match s.waiters[i]? with
    | none => none
    | some w => if w.blocked then none else some (s.without i)
  | .quit i =>
    match s.waiters[i]? with
    | none => none
    | some w => if w.blocked then some (s.without i) else none

/-- Every notification is part of the call that makes it, so nothing will wake them. -/
def Stranded (s : Waits) : Prop :=
  s.sys.waitTokens = 0 ∧
    ∃ w ∈ s.waiters, w.blocked = true ∧ w.key.holds s.sys.entry = true

instance (s : Waits) : Decidable s.Stranded := inferInstanceAs (Decidable (_ ∧ _))

def AllNotified (s : Waits) : Prop := ∀ w ∈ s.waiters, w.blocked = true → w.notified = true

/-- Tokens go first to those who waited when they were sent, nobody who was not notified waits when
a write is discarded, nor when a writer appends to a page that is not clean. -/
def Orderly (s : Waits) : WaitAction → Prop
  | .call .discardWrite => s.AllNotified
  | .call (.publishDirty offset _ _) => s.AllNotified ∨
    ∀ page < s.sys.pageCount, offset / kCacheBitmapUnit ≤ page →
      s.sys.bitmap page = .clean
  | .take i => Entitled s.waiters i
  | _ => True

structure Idle (s : Waits) : Prop where
  fresh : s.sys.Fresh
  registered : s.sys.waiters = 0
  waiters : s.waiters = []

structure Inv (s : Waits) : Prop where
  acc : Accounted s.sys
  registered : s.sys.waiters = s.waiters.length
  inside : ∀ w ∈ s.waiters, w.key.inside s.sys.entry = true
  covered : Covered (fun c : Condition => c.holds s.sys.entry = true)
      s.sys.waitTokens s.waiters

end Waits

lemma step_signals {s s'} (acc : Accounted s) {act}
    (h : Cache.step s act = some s') : Signals s.entry s'.entry := by
  cases act with
  | claimFetch =>
    simp only [Cache.step] at h
    split at h
    · rename_i claimed
      cases h
      exact claimFetch_signals acc.sized.1 claimed
    · cases h
      exact .refl _
  | write =>
    simp only [Cache.step] at h
    split at h
    · cases h
    obtain ⟨-, ⟨⟩⟩ := ite_none_right_eq_some.1 h
    exact .refl _
  | publishClean =>
    cases h
    exact publishClean_signals _ _ _ _
  | finishFetch claim | failFetch claim =>
    cases h
    obtain ⟨size, waiters, tokens⟩ := finishFetch_notifies (e := s.entry) claim
    exact (Signals.refl s.entry).then_notified size waiters tokens
  | rollbackFetch =>
    cases h
    exact rollbackFetch_signals _
  | markBad =>
    cases h
    exact markBad_signals _
  | pinFetchVerification =>
    simp only [Cache.step] at h
    split at h
    · rename_i pinned
      cases h
      exact pinFetchVerification_signals (fun a mem => (acc.claims a mem).1) pinned
    · cases h
      exact .refl _
  | beginRetry =>
    cases h
    unfold Sys.beginRetry
    split
    · rename_i turn _
      exact beginRetry_signals turn
    · exact .refl _
  | finishRetry =>
    cases h
    exact finishRetry_signals _ _
  | pinClean =>
    obtain ⟨-, h⟩ := ite_none_right_eq_some.1 h
    split at h
    · rename_i pinned
      cases h
      exact pinClean_signals pinned
    · cases h
      exact .refl _
  | unpin =>
    obtain ⟨-, ⟨⟩⟩ := ite_none_right_eq_some.1 h
    exact unpin_signals _ _
  | touch =>
    cases h
    unfold CacheEntry.touch
    split
    · exact .refl _
    · exact .unread
  | disableEviction =>
    cases h
    exact .unread
  | beginChecksumManifest =>
    simp only [Cache.step] at h
    split at h
    · rename_i begun
      cases h
      exact beginChecksumManifest_signals begun
    · cases h
      exact .refl _
  | finishChecksumManifest | checksumManifestUnavailable =>
    obtain ⟨-, ⟨⟩⟩ := ite_none_right_eq_some.1 h
    exact .notifyWaiters rfl rfl rfl
  | claimChecksum =>
    simp only [Cache.step] at h
    split at h
    · cases h
      exact .refl _
    · rename_i claimed
      split at h
      · cases h
        exact claimChecksum_signals acc.parts.tiled claimed ‹_›
      · cases h
        exact .refl _
  | hashPart | writePart | punchClaim | truncate =>
    obtain ⟨-, ⟨⟩⟩ := ite_none_right_eq_some.1 h
    exact .refl _
  | checksumMismatch =>
    obtain ⟨-, ⟨⟩⟩ := ite_none_right_eq_some.1 h
    exact checksumMismatch_signals _
  | beginChecksumRetry =>
    obtain ⟨-, h⟩ := ite_none_right_eq_some.1 h
    split at h
    · rename_i turn
      cases h
      exact beginChecksumRetry_signals turn
    · cases h
      exact .refl _
  | finishChecksum =>
    obtain ⟨-, ⟨⟩⟩ := ite_none_right_eq_some.1 h
    exact finishChecksum_signals _ _
  | abandonChecksum =>
    obtain ⟨-, ⟨⟩⟩ := ite_none_right_eq_some.1 h
    exact abandonChecksum_signals _
  | evictOneRegion =>
    cases h
    exact evictOneRegion_signals _
  | claimLiveRegion =>
    have signals := claimLiveRegion_signals (e := s.entry)
    simp only [Cache.step] at h
    split at h
    all_goals
      rename_i claimed
      rw [claimed] at signals
      cases h
      exact signals
  | finishClaim =>
    obtain ⟨-, h⟩ := ite_none_right_eq_some.1 h
    obtain ⟨e', ends, rfl⟩ := map_eq_some_iff.1 h
    exact finishClaim_signals ends
  | retireGeneration =>
    cases h
    exact retireGeneration_signals
  | tryExport =>
    cases h
    exact tryExport_signals _

/-- Not to give a write up, nor to append to pages that are not clean. -/
def EntryAction.Announced (s : Sys) : EntryAction → Prop
  | .discardWrite => False
  | .publishDirty offset _ _ => ∀ page < s.pageCount, offset / kCacheBitmapUnit ≤ page →
    s.bitmap page = .clean
  | _ => True

lemma entryStep_signals {s t} (acc : Accounted s) {act}
    (h : entryStep s act = some t) (announced : act.Announced s) : Signals s.entry t.entry := by
  cases act with
  | use act => exact step_signals acc h
  | pin offset length =>
    obtain ⟨-, h⟩ := ite_none_right_eq_some.1 h
    split at h
    · rename_i pinned
      cases h
      exact pin_signals pinned
    · cases h
      exact .refl _
  | beginWrite =>
    obtain ⟨-, ⟨⟩⟩ := ite_none_right_eq_some.1 h
    unfold CacheEntry.beginWrite
    split
    · exact .refl _
    · exact .unread
  | publishDirty offset length writtenEnd =>
    obtain ⟨-, ⟨⟩⟩ := ite_none_right_eq_some.1 h
    cases published : s.publishDirty offset length writtenEnd with
    | error => exact .refl _
    | ok e' => exact publishDirty_signals acc announced published
  | commitWrite =>
    cases h
    exact .unread
  | discardWrite => exact announced.elim
  | detach =>
    cases h
    exact detach_signals _

lemma publishDirty_frame {s : Sys} (acc : Accounted s) (offset length writtenEnd : Nat) :
    let t := s.attempt (s.publishDirty offset length writtenEnd)
    s.size ≤ t.size ∧ t.waiters = s.waiters ∧
      t.waitTokens = s.waitTokens ∧ t.quiescent = s.quiescent := by
  unfold CacheEntry.publishDirty
  split
  · exact ⟨Nat.le_refl _, rfl, rfl, rfl⟩
  split
  · exact ⟨Nat.le_refl _, rfl, rfl, rfl⟩
  · exact ⟨acc.grows ‹_› ‹_›, rfl, rfl, rfl⟩

namespace Waits

variable {s s' : Waits}

lemma inside_mono {e e'} (size : e.size ≤ e'.size) {c : Condition}
    (inside : c.inside e = true) : c.inside e' = true := by
  cases c with
  | range offset length | unblocked offset length =>
    exact decide_eq_true ((of_decide_eq_true inside).trans size)
  | checksum | manifest | retry | checksumRetry | quiescent => rfl

lemma Inv.after (inv : Inv s) {t} (acc : Accounted t) (signals : Signals s.sys.entry t.entry) :
    Inv (s.after t) := by
  have size : s.sys.size ≤ t.size := by
    cases signals with
    | notified size => exact size
    | quiet _ _ harder => exact harder.size
  have waiters : t.waiters = s.sys.waiters := by
    cases signals with
    | notified _ waiters | quiet waiters => exact waiters
  refine ⟨acc, ?_, fun w mem => ?_, ?_⟩
  · rw [Waits.after, length_notifyIf, waiters]
    exact inv.registered
  · obtain ⟨v, mem, key⟩ := key_notifyIf mem
    rw [← key]
    exact inside_mono size (inv.inside v mem)
  · have registered := inv.registered
    cases signals with
    | notified _ _ tokens =>
      have enough : s.waiters.length ≤ t.waitTokens := by omega
      by_cases sent : s.sys.waitTokens < t.waitTokens
      · rw [Waits.after, decide_eq_true sent]
        exact .notify enough
      · have none : s.waiters = [] := length_eq_zero_iff.1 (by omega)
        rw [Waits.after, decide_eq_false sent, none]
        exact covered_nil _ _
    | quiet _ tokens harder =>
      have silent : ¬ s.sys.waitTokens < t.waitTokens := by omega
      rw [Waits.after, decide_eq_false silent]
      refine inv.covered.quiet (Nat.le_of_eq tokens.symm) fun w mem _ goes => ?_
      by_contra waits
      rw [harder.waits (inv.inside w mem) (Bool.eq_false_iff.2 waits)] at goes
      cases goes

lemma Inv.allNotified (inv : Inv s) {t} (acc : Accounted t) (all : s.AllNotified)
    (size : s.sys.size ≤ t.size) (waiters : t.waiters = s.sys.waiters)
    (tokens : t.waitTokens = s.sys.waitTokens) : Inv (s.after t) := by
  have silent : ¬ s.sys.waitTokens < t.waitTokens := by omega
  rw [Waits.after, decide_eq_false silent]
  refine ⟨acc, waiters.trans inv.registered, fun w mem => inside_mono size (inv.inside w mem), ?_⟩
  exact inv.covered.allDue (Nat.le_of_eq tokens.symm) all

lemma Inv.call (inv : Inv s) {act t} (orderly : s.Orderly (.call act))
    (h : entryStep s.sys act = some t) : Inv (s.after t) := by
  have acc := inv.acc.entryStep h
  cases act with
  | discardWrite =>
    cases h
    exact inv.allNotified acc orderly (Nat.le_refl _) rfl rfl
  | publishDirty offset length writtenEnd =>
    rcases orderly with all | clean
    · obtain ⟨-, ⟨⟩⟩ := ite_none_right_eq_some.1 h
      obtain ⟨size, waiters, tokens, -⟩ := publishDirty_frame inv.acc offset length writtenEnd
      exact inv.allNotified acc all size waiters tokens
    · exact inv.after acc (entryStep_signals inv.acc h clean)
  | use act | pin | beginWrite | commitWrite | detach =>
    exact inv.after acc (entryStep_signals inv.acc h trivial)

lemma test_signals {t u} (acc : Accounted t) {c} (h : t.test c = some u) :
    Accounted u ∧ Signals t.entry u.entry ∧ c.inside u.entry = true := by
  have unchanged (p : Bool) (h : (if p then some t else none) = some u) :
      p = true ∧ u = t := by
    cases p with
    | true => exact ⟨rfl, (some.inj h).symm⟩
    | false => cases h
  cases c with
  | retry claim =>
    have turn : Cache.step t (.beginRetry claim) = some u := h
    exact ⟨acc.step turn, step_signals acc turn, rfl⟩
  | checksumRetry claim =>
    have turn : Cache.step t (.beginChecksumRetry claim) = some u := h
    exact ⟨acc.step turn, step_signals acc turn, rfl⟩
  | quiescent =>
    obtain ⟨-, rfl⟩ := unchanged _ h
    exact ⟨acc, .refl _, rfl⟩
  | range | unblocked =>
    obtain ⟨inside, rfl⟩ := unchanged _ h
    exact ⟨acc, .refl _, inside⟩
  | checksum | manifest =>
    obtain ⟨-, rfl⟩ := unchanged true h
    exact ⟨acc, .refl _, rfl⟩

lemma waits_counters (e : CacheEntry) (waiters waitTokens : Nat) (c : Condition) :
    c.holds { e with waiters, waitTokens } = false ↔ c.holds e = false := by
  cases c with
  | range | unblocked | checksum | manifest | quiescent => exact Iff.rfl
  | retry =>
    rw [retry_waits_iff, retry_waits_iff]
    exact Iff.rfl
  | checksumRetry =>
    rw [checksumRetry_waits_iff, checksumRetry_waits_iff]
    exact Iff.rfl

lemma holds_counters (e : CacheEntry) (waiters waitTokens : Nat) (c : Condition) :
    c.holds { e with waiters, waitTokens } = true ↔ c.holds e = true := by
  rw [← Bool.not_eq_false, ← Bool.not_eq_false, waits_counters]

lemma Inv.counters (inv : Inv s) {waiters waitTokens ws}
    (registered : waiters = ws.length) (keys : ∀ w ∈ ws, w.key.inside s.sys.entry = true)
    (covered : Covered (fun c : Condition => c.holds s.sys.entry = true) waitTokens ws) :
    Inv ⟨s.sys.withEntry { s.sys.entry with waiters, waitTokens }, ws⟩ := by
  refine ⟨inv.acc.withEntry .rest, registered, ?_, ?_⟩
  · intro w mem
    exact inside_mono (Nat.le_refl _) (keys w mem)
  · exact covered.quiet (Nat.le_refl _) fun w _ _ goes => (holds_counters _ _ _ _).1 goes

lemma Inv.without (inv : Inv s) {i w} (found : s.waiters[i]? = some w) : Inv (s.without i) := by
  have lt := (List.getElem?_eq_some_iff.1 found).1
  refine inv.counters ?_ (fun v mem => ?_) (inv.covered.leave i)
  · rw [inv.registered, length_eraseIdx_of_lt lt]
  · exact inv.inside v ((eraseIdx_sublist _ _).subset mem)

lemma Inv.step (inv : Inv s) {act} (orderly : s.Orderly act)
    (h : s.step act = some s') : Inv s' := by
  cases act with
  | call act =>
    obtain ⟨t, called, rfl⟩ := map_eq_some_iff.1 h
    exact inv.call orderly called
  | wait c =>
    obtain ⟨t, tested, rfl⟩ := map_eq_some_iff.1 h
    obtain ⟨acc, signals, inside⟩ := test_signals inv.acc tested
    have after := inv.after acc signals
    split
    · exact after
    rename_i waits
    refine after.counters ?_ (fun w mem => ?_) (after.covered.join waits)
    · rw [length_append]
      exact congrArg (· + 1) after.registered
    · rcases mem_append.1 mem with mem | mem
      · exact after.inside w mem
      · obtain rfl := mem_singleton.1 mem
        exact inside
  | take i =>
    simp only [Waits.step] at h
    split at h
    · cases h
    rename_i w found
    obtain ⟨guard, h⟩ := ite_none_right_eq_some.1 h
    obtain ⟨blocked, tokens⟩ := guard
    cases h
    have covered := inv.covered
    rw [← Nat.succ_pred_eq_of_pos tokens] at covered
    refine inv.counters ?_ (fun v mem => ?_) (covered.take found blocked orderly)
    · rw [inv.registered, wakeAt, length_modify]
    · obtain ⟨u, mem, key⟩ := key_wakeAt mem
      rw [← key]
      exact inv.inside u mem
  | leave i =>
    simp only [Waits.step] at h
    split at h
    · cases h
    rename_i w found
    split at h
    · cases h
    · cases h
      exact inv.without found
  | quit i =>
    simp only [Waits.step] at h
    split at h
    · cases h
    rename_i w found
    obtain ⟨-, ⟨⟩⟩ := ite_none_right_eq_some.1 h
    exact inv.without found

lemma Idle.inv (idle : Idle s) : Inv s := by
  refine ⟨idle.fresh.accounted, ?_, ?_, ?_⟩
  · rw [idle.registered, idle.waiters]
    rfl
  · rw [idle.waiters]
    exact forall_mem_nil _
  · rw [idle.waiters]
    exact covered_nil _ _

/-- **No waiter is stranded** in an orderly run, whatever the interleaving of calls, registrations,
wake-ups and waiters that wait again. -/
theorem no_stranded_waiter (idle : Idle s) {acts : List WaitAction}
    (orderly : Machine.Along Waits.step Orderly s acts)
    (run : run Waits.step s acts = some s') : ¬ s'.Stranded := by
  have inv : Inv s' :=
    run_inv_along (fun _ _ _ inv orderly h => inv.step orderly h) idle.inv orderly run
  rintro ⟨none, w, mem, blocked, goes⟩
  have token := inv.covered.token mem blocked goes
  rw [none] at token
  exact Nat.lt_irrefl 0 token

end Waits

def Waits.empty (size : Nat) : Waits := ⟨Sys.empty twoPages size, []⟩

lemma Waits.empty_idle {size} (h : size ≤ uint64Max) : (Waits.empty size).Idle :=
  ⟨Sys.empty_fresh h, rfl, rfl⟩

def fetchAwaited : List WaitAction :=
  [.call (.use (.claimFetch 0 1 0)), .wait (.range 0 1),
    .call (.use (.finishFetch ⟨0, 1, 1, 40000⟩ fun _ => true))]

theorem no_stranded_waiter_fetch :
    ∃ s', run Waits.step (Waits.empty 40000) fetchAwaited = some s' ∧
      (∃ w ∈ s'.waiters, w.blocked = true ∧ w.key.holds s'.sys.entry = true) ∧
      ¬ s'.Stranded := by
  have idle : (Waits.empty 40000).Idle := Waits.empty_idle (by decide)
  have orderly : Machine.Along Waits.step Waits.Orderly (Waits.empty 40000) fetchAwaited := by
    refine .of_all (fun act mem s => ?_) _
    rcases mem_cons.1 mem with rfl | mem
    · trivial
    rcases mem_cons.1 mem with rfl | mem
    · trivial
    obtain rfl := mem_singleton.1 mem
    trivial
  have ran : run Waits.step (Waits.empty 40000) fetchAwaited = some _ :=
    run_final (by decide +kernel)
  exact ⟨_, ran, by decide +kernel, Waits.no_stranded_waiter idle orderly ran⟩

def discardAwaited : List WaitAction :=
  [.call .beginWrite, .call (.publishDirty 0 40000 40000), .call (.use .beginChecksumManifest),
    .wait .manifest, .call .discardWrite]

/-- The first block arrives, and the reader of the second takes both tokens. -/
def tokenStolen : List WaitAction :=
  [.call (.use (.claimFetch 0 1 0)), .call (.use (.claimFetch 65536 1 0)), .wait (.range 0 1),
    .wait (.range 65536 1), .call (.use (.finishFetch ⟨0, 1, 1, 65536⟩ fun _ => true)), .take 1,
    .leave 1, .wait (.range 65536 1), .take 1, .leave 1, .wait (.range 65536 1)]

theorem waiter_stranded :
    (∃ s', run Waits.step (Waits.empty 0) discardAwaited = some s' ∧ s'.Stranded) ∧
    ∃ s', run Waits.step (Waits.empty 131072) tokenStolen = some s' ∧ s'.Stranded := by
  have first : run Waits.step (Waits.empty 0) discardAwaited = some _ :=
    run_final (by decide +kernel)
  have second : run Waits.step (Waits.empty 131072) tokenStolen = some _ :=
    run_final (by decide +kernel)
  exact ⟨⟨_, first, by decide +kernel⟩, _, second, by decide +kernel⟩

end Ngs3fs.Cache
