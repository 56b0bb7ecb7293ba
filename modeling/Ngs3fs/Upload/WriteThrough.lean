import Ngs3fs.Upload.Handle

/-!
# Write-through exactness

As long as a handle has not failed, the contents of the submitted parts followed by the current
part are the bytes it has taken (`Good`), and every submitted part is either a pending job with
that content or has its ETag and is stored under its number. A write that fails in the middle of
its data, or a part that fails, leaves the handle failed for good; a write that is refused before
leaves it as it was. -/

namespace Ngs3fs.Upload
open Program Machine List Function Option

def Handle.currentContent (h : Handle) : List UInt8 := (h.current.map RetainedPart.content).getD []

structure Good (h : Handle) (taken : List UInt8) : Prop where
  content : h.submitted.flatten ++ h.currentContent = taken
  number : h.nextPartNumber = h.submitted.length + 1
  required : h.multipartRequired = !h.submitted.isEmpty
  etags : h.partEtags.length = h.submitted.length
  bound : h.submitted.length ≤ kMaximumMultipartParts
  part : ∀ part, h.current = some part → part.Ok
  jobs : ∀ job ∈ h.pending, 1 ≤ job.1 ∧ h.submitted[job.1 - 1]? = some job.2.content
  done : ∀ (i : Nat) body, h.submitted[i]? = some body → (∃ part, (i + 1, part) ∈ h.pending) ∨
    h.partEtags[i]? = some true ∧ h.uploaded (i + 1) = some body

structure Same (h h' : Handle) : Prop where
  written : h'.written = h.written
  streamOffset : h'.streamOffset = h.streamOffset
  commit : h'.commit = h.commit
  flushing : h'.flushing = h.flushing
  log : h'.log = h.log

def Quiet (h h' : Handle) : Prop := ∀ r ∈ h'.log, r ∈ h.log ∨ ∃ number, r = .partFailed number

def Fails (h : Handle) (stop : Stop) (h' : Handle) : Prop := stop ≠ .exhausted ∧ Quiet h h'

lemma Same.quiet {h h'} (same : Same h h') : Quiet h h' := by
  intro r mem
  rw [same.log] at mem
  exact .inl mem

structure Writing (k : Setting) (h0 h : Handle) (taken : List UInt8) : Prop where
  good : Good h taken
  same : Same h0 h
  state : h.writeState = .open
  full : ∀ body ∈ h.submitted, body.length = k.partSize

def Room (k : Setting) (h : Handle) : Prop :=
  ∀ part, h.current = some part → part.bytes < k.partSize

section
variable {k : Setting} {h0 h : Handle} {taken written : List UInt8} {writeState : WriteState}
  {streamOffset tick : Nat} {reservation flushing unlinked : Bool} {log : List Reply}

lemma Good.congr (good : Good h taken) :
    Good { h with writeState, unlinked, streamOffset, reservation, flushing, tick, written, log }
      taken :=
  { good with }

lemma Good.released (good : Good h taken) :
    Good { h with writeState, reservation, flushing, current := none } h.submitted.flatten :=
  { good with content := append_nil _, part := nofun }

lemma Same.congr (same : Same h0 h) {current} : Same h0 { h with current, reservation, tick } :=
  { same with }

end

/-! ### Events -/

section
variable {k : Setting} {h0 h : Handle} {taken : List UInt8}

lemma Good.partDone (good : Good h taken) {number part}
    (job : (number, part) ∈ h.pending) (stored : Bool) (linked : h.unlinked = false) :
    Good (h.partDone number part stored true) taken := by
  have shape : h.partDone number part stored true =
      { h with
        pending := h.pending.filter fun job => job.1 != number
        uploaded := update h.uploaded number (some part.content)
        partEtags := h.partEtags.set (number - 1) true } := by
    rw [Handle.partDone]
    simp only [Bool.or_true, if_true, linked, Bool.not_false, Bool.and_self]
  rw [shape]
  obtain ⟨pos, own⟩ := good.jobs _ job
  refine { good with etags := ?_, jobs := ?_, done := ?_ }
  · rw [length_set]
    exact good.etags
  · intro other mem
    exact good.jobs other (mem_of_mem_filter mem)
  · intro i body found
    by_cases here : i + 1 = number
    · subst here
      have inside : i < h.partEtags.length := by
        rw [good.etags]
        exact (List.getElem?_eq_some_iff.1 found).1
      refine .inr ⟨?_, ?_⟩
      · exact getElem?_set_self inside
      · show update h.uploaded (i + 1) (some part.content) (i + 1) = some body
        rw [update_self]
        exact own.symm.trans found
    · cases good.done i body found with
      | inl waiting =>
        obtain ⟨other, mem⟩ := waiting
        refine .inl ⟨other, mem_filter.2 ⟨mem, ?_⟩⟩
        exact bne_iff_ne.2 here
      | inr stored =>
        refine .inr ⟨?_, ?_⟩
        · rw [getElem?_set_ne (by omega)]
          exact stored.1
        · show update h.uploaded number (some part.content) (i + 1) = some body
          rw [update_of_ne here]
          exact stored.2

lemma failWrite_failed (h : Handle) (errno : Errno) :
    ∃ e, (h.failWrite errno).writeState = .failed e := by
  cases state : h.writeState <;> rw [Handle.failWrite, state] <;> exact ⟨_,
    by first | rfl | exact state⟩

lemma failWrite_log (h : Handle) (errno : Errno) : (h.failWrite errno).log = h.log := by
  rw [Handle.failWrite]
  split <;> rfl

lemma partDone_failed (number : Nat) (part : RetainedPart) (stored : Bool) {ok}
    (bad : (ok && !h.unlinked) = false) :
    (∃ e, (h.partDone number part stored ok).writeState = .failed e) ∧
      Quiet h (h.partDone number part stored ok) := by
  have shape : ∃ (t : Handle) (errno : Errno), t.log = h.log ∧ h.partDone number part stored ok =
      (t.failWrite errno).reply (.partFailed number) := by
    refine ⟨_, _, ?_, if_neg (by rw [bad]; exact Bool.false_ne_true)⟩
    rfl
  obtain ⟨t, errno, log, shape⟩ := shape
  rw [shape]
  refine ⟨failWrite_failed t errno, ?_⟩
  intro r mem
  cases mem with
  | head => exact .inr ⟨number, rfl⟩
  | tail _ mem =>
    rw [failWrite_log, log] at mem
    exact .inl mem

lemma Same.refl (h : Handle) : Same h h := ⟨rfl, rfl, rfl, rfl, rfl⟩

lemma event_cases (h : Handle) (e : HandleEvent) : Quiet h (h.event e) ∧
    ((∃ errno, (h.event e).writeState = .failed errno) ∨
      (h.event e).writeState = h.writeState ∧ Same h (h.event e) ∧
      (h.event e).submitted = h.submitted ∧
        (h.event e).current = h.current ∧ ∀ taken, Good h taken → Good (h.event e) taken) := by
  cases e with
  | unlink =>
    rw [Handle.event, Handle.unlink]
    split
    · exact ⟨fun r mem => .inl mem, .inr ⟨rfl, .refl h, rfl, rfl, fun _ good => good⟩⟩
    · refine ⟨fun r mem => .inl mem,
        .inr ⟨rfl, ⟨rfl, rfl, rfl, rfl, rfl⟩, rfl, rfl, fun taken good => ?_⟩⟩
      exact good.congr
    · refine ⟨fun r mem => .inl ?_, .inl (failWrite_failed _ _)⟩
      rwa [failWrite_log] at mem
  | partDone number stored ok =>
    rw [Handle.event]
    cases found : h.pending.find? fun job => job.1 == number with
    | none => exact ⟨fun r mem => .inl mem, .inr ⟨rfl, .refl h, rfl, rfl, fun _ good => good⟩⟩
    | some job =>
      dsimp only
      have named : job.1 = number := by simpa using find?_some found
      have mem : (number, job.2) ∈ h.pending := by
        rw [← named]
        exact mem_of_find?_eq_some found
      cases fine : ok && !h.unlinked with
      | false =>
        obtain ⟨failed, quiet⟩ := partDone_failed number job.2 stored fine
        exact ⟨quiet, .inl failed⟩
      | true =>
        rw [Bool.and_eq_true, Bool.not_eq_true'] at fine
        obtain ⟨rfl, linked⟩ := fine
        have same : Same h (h.partDone number job.2 stored true) := by
          rw [Handle.partDone]
          simp only [linked, Bool.not_false, Bool.and_self, if_true]
          exact ⟨rfl, rfl, rfl, rfl, rfl⟩
        refine ⟨same.quiet, .inr ⟨?_, same, ?_, ?_, fun taken good =>
          good.partDone mem stored linked⟩⟩
        all_goals
          rw [Handle.partDone]
          simp only [linked, Bool.not_false, Bool.and_self, if_true]

lemma Same.trans {h1 h2} (first : Same h0 h1) (second : Same h1 h2) : Same h0 h2 :=
  ⟨second.written.trans first.written, second.streamOffset.trans first.streamOffset,
    second.commit.trans first.commit, second.flushing.trans first.flushing,
      second.log.trans first.log⟩

lemma Quiet.trans {h1 h2} (first : Quiet h0 h1) (second : Quiet h1 h2) : Quiet h0 h2 := by
  intro r mem
  cases second r mem with
  | inl mem => exact first r mem
  | inr failed => exact .inr failed

lemma events_cases (events : List HandleEvent) (quiet : Quiet h0 h)
    (writing : h.writeState = .open → Writing k h0 h taken ∧ Room k h) :
    Quiet h0 (events.foldl Handle.event h) ∧ ((events.foldl Handle.event h).writeState = .open →
      Writing k h0 (events.foldl Handle.event h) taken ∧ Room k (events.foldl Handle.event h)) := by
  induction events generalizing h with
  | nil => exact ⟨quiet, writing⟩
  | cons e events ih =>
    obtain ⟨step, cases⟩ := event_cases h e
    refine ih (quiet.trans step) ?_
    intro opened
    obtain ⟨errno, failed⟩ | ⟨state, same, submitted, current, good⟩ := cases
    · cases opened.symm.trans failed
    · rw [state] at opened
      obtain ⟨w, room⟩ := writing opened
      refine ⟨⟨good taken w.good, w.same.trans same, state.trans w.state, ?_⟩, ?_⟩
      · rw [submitted]
        exact w.full
      · rw [Room, current]
        exact room

end

/-! ### The programs of a write -/

section
variable {k : Setting} {h0 h : Handle} {taken : List UInt8}

section
variable (w : Writing k h0 h taken)
include w

lemma reserve_ends (room : Room k h) :
    Ends (reserve k) h (fun _ h' => Writing k h0 h' taken ∧ Room k h') (Fails h0) := by
  have run : (reserve k).run h = reserve k h := rfl
  by_cases reserved : h.reservation = true
  · rw [reserve, if_pos reserved] at run
    exact .of_ok run ⟨w, room⟩
  · rw [reserve, if_neg reserved] at run
    obtain ⟨quiet, writing⟩ := events_cases (k.others h.tick) w.same.quiet fun _ => ⟨w, room⟩
    by_cases opened : ((k.others h.tick).foldl Handle.event h).writeState = .open
    · obtain ⟨⟨good, same, state, full⟩, room⟩ := writing opened
      refine .of_ok (run.trans (if_neg ?_)) ?_
      · exact fun ne => bne_iff_ne.1 ne opened
      · exact ⟨⟨good.congr, same.congr, state, full⟩, room⟩
    · exact .of_error (run.trans (if_pos (bne_iff_ne.2 opened))) ⟨nofun, quiet⟩

lemma Writing.withPart {part} (ok : part.Ok) {taken'}
    (content : h.submitted.flatten ++ part.content = taken') (tick : Nat) :
    Writing k h0 { h with current := some part, tick := tick } taken' := by
  obtain ⟨good, same, state, full⟩ := w
  refine ⟨{ good with content := content, part := ?_ },
    same.congr, state, full⟩
  intro other same
  cases same
  exact ok

lemma currentPart_ends (room : Room k h) : Ends (currentPart k) h
      (fun part h' => Writing k h0 h' taken ∧ h'.current = some part ∧ part.bytes < k.partSize)
    (Fails h0) := by
  have run : (currentPart k).run h = currentPart k h := rfl
  rw [currentPart] at run
  cases current : h.current with
  | some part =>
    rw [current] at run
    exact .of_ok run ⟨w, current, room part current⟩
  | none =>
    rw [current] at run
    cases pipe : k.pipe h.tick with
    | error errno =>
      rw [pipe] at run
      exact .of_error run ⟨nofun, fun r mem => w.same.quiet r mem⟩
    | ok capacity =>
      rw [pipe] at run
      refine .of_ok run ⟨w.withPart ⟨rfl, ?_⟩ ?_ _, rfl, k.partSize_pos⟩
      · intro segment mem
        cases mem with
        | head => exact Nat.zero_le _
        | tail _ mem => cases mem
      · have content := w.good.content
        rw [Handle.currentContent, current] at content
        exact content

lemma ensureCurrentPart_ends (room : Room k h) :
    Ends (ensureCurrentPart k) h
      (fun part h' => Writing k h0 h' taken ∧ h'.current = some part ∧
        part.bytes < k.partSize) (Fails h0) :=
  (reserve_ends w room).bind fun _ _ reserved => currentPart_ends reserved.1 reserved.2

lemma retain_ends {part} (current : h.current = some part) {buf}
    {off count cursor} (inside : off + count ≤ buf.data.length)
    (stream : buf.isFd = true → buf.seek = false → cursor = off) :
    Ends (retain k buf off count cursor part) h
      (fun cursor' h' => Writing k h0 h' (taken ++ (buf.data.drop off).take count) ∧
        (∃ part', h'.current = some part' ∧ part'.bytes = part.bytes + count) ∧
        (buf.isFd = true → buf.seek = false → cursor' = off + count)) (Fails h0) := by
  have run : (retain k buf off count cursor part).run h =
    retain k buf off count cursor part h := rfl
  have content : h.submitted.flatten ++ part.content = taken := by
    have content := w.good.content
    rwa [Handle.currentContent, current] at content
  have ok := w.good.part part current
  have next : (FdSource.mk buf.data buf.seek off cursor).next = buf.data.drop off ∨
    buf.isFd = false := by
    cases isFd : buf.isFd with
    | false => exact .inr rfl
    | true =>
      refine .inl ?_
      cases seek : buf.seek with
      | true => rfl
      | false =>
        rw [FdSource.next, if_neg Bool.false_ne_true, stream isFd seek]
  rw [retain] at run
  by_cases isFd : buf.isFd = true
  · rw [if_pos isFd] at run
    by_cases negative : (buf.seek && decide (buf.pos < 0)) = true
    · rw [if_pos negative] at run
      exact .of_error run ⟨nofun, w.same.quiet⟩
    · rw [if_neg negative] at run
      have next := next.resolve_right (by rw [isFd]; decide)
      have spec := retainFd_spec k.toKernel (2 * count + 1) h.tick false
        ⟨buf.data, buf.seek, off, cursor⟩ ok (show count ≤ _ by rw [next, length_drop]; omega)
        (by split <;> omega)
      rw [next] at spec
      generalize retainFd k.toKernel (2 * count + 1) h.tick count false ⟨buf.data, buf.seek, off,
        cursor⟩ part =
        result at spec run
      obtain stop | ⟨part', source, tick⟩ := result
      · exact .of_error run ⟨spec, w.same.quiet⟩
      · obtain ⟨ok', content', count', source_eq⟩ := spec
        refine .of_ok run ⟨w.withPart ok' ?_ _, ⟨part', rfl, count'⟩, ?_⟩
        · rw [content', ← append_assoc, content]
        · intro _ seek
          rw [source_eq, FdSource.advance, if_neg (by rw [seek]; exact Bool.false_ne_true)]
          show cursor + count = off + count
          rw [stream isFd seek]
  · rw [if_neg isFd] at run
    have spec := retainBytes_spec k.toKernel count h.tick ((buf.data.drop off).take count) ok
      (by rw [length_take]; omega)
    have length : ((buf.data.drop off).take count).length = count := by
      rw [length_take, length_drop]
      omega
    generalize retainBytes k.toKernel count h.tick ((buf.data.drop off).take count) part =
      result at spec run
    obtain stop | ⟨part', tick⟩ := result
    · exact .of_error run ⟨spec, w.same.quiet⟩
    · obtain ⟨ok', content', count'⟩ := spec
      refine .of_ok run ⟨w.withPart ok' ?_ _, ⟨part', rfl, ?_⟩, fun fd => absurd fd isFd⟩
      · rw [content', ← append_assoc, content]
      · rw [count', length]

end

lemma submitPart_ends (part : RetainedPart) (good : Good h taken) (released : h.current = none)
    (same : Same h0 h) :
    Ends (submitPart k part) h
      (fun _ h' => Good h' (taken ++ part.content) ∧ Same h0 h' ∧ h'.current = none ∧
        h'.writeState = h.writeState ∧ h'.submitted =
      h.submitted ++ [part.content]) (Fails h0) := by
  have run : (submitPart k part).run h = submitPart k part h := rfl
  rw [submitPart] at run
  by_cases limit : kMaximumMultipartParts < h.nextPartNumber
  · rw [if_pos limit] at run
    exact .of_error run ⟨nofun, same.quiet⟩
  · rw [if_neg limit] at run
    cases submit : k.submit h.tick with
    | error errno =>
      rw [submit] at run
      exact .of_error run ⟨nofun, fun r mem => same.quiet r mem⟩
    | ok _ =>
      rw [submit] at run
      have number := good.number
      have resized : resize h.partEtags h.nextPartNumber = h.partEtags ++ [false] := by
        have length : h.nextPartNumber = h.partEtags.length + 1 := by
          rw [good.etags]
          exact number
        rw [resize, length, take_of_length_le (Nat.le_succ _), Nat.add_sub_cancel_left]
        rfl
      refine .of_ok run ⟨⟨?_, ?_, ?_, ?_, ?_, ?_, ?_, ?_⟩, { same with }, released, rfl, rfl⟩
      · have content := good.content
        rw [Handle.currentContent, released] at content
        rw [Handle.currentContent, released, flatten_append, ← content]
        simp
      · rw [number, length_append]
        rfl
      · simp
      · rw [resized, length_append, length_append, good.etags]
        rfl
      · rw [length_append]
        show h.submitted.length + 1 ≤ kMaximumMultipartParts
        omega
      · intro other mem
        rw [released] at mem
        cases mem
      · intro job mem
        rw [mem_append, mem_singleton] at mem
        obtain mem | rfl := mem
        · obtain ⟨pos, own⟩ := good.jobs job mem
          refine ⟨pos, ?_⟩
          rw [getElem?_append_left (List.getElem?_eq_some_iff.1 own).1]
          exact own
        · refine ⟨by omega, ?_⟩
          rw [number, Nat.add_sub_cancel, getElem?_append_right (Nat.le_refl _), Nat.sub_self]
          rfl
      · intro i body found
        rw [resized]
        by_cases old : i < h.submitted.length
        · rw [getElem?_append_left old] at found
          cases good.done i body found with
          | inl waiting =>
            obtain ⟨other, mem⟩ := waiting
            exact .inl ⟨other, mem_append_left _ mem⟩
          | inr stored =>
            refine .inr ⟨?_, stored.2⟩
            rw [getElem?_append_left (by rw [good.etags]; exact old)]
            exact stored.1
        · have last : i = h.submitted.length := by
            have inside := (List.getElem?_eq_some_iff.1 found).1
            rw [length_append, length_singleton] at inside
            omega
          refine .inl ⟨part, mem_append_right _ ?_⟩
          rw [mem_singleton, last, number]

lemma submitCurrentPart_ends (w : Writing k h0 h taken)
    (fits : ∀ part, h.current = some part → part.bytes ≤ k.partSize) :
    Ends (submitCurrentPart k) h (fun _ h' => Writing k h0 h' taken ∧ Room k h') (Fails h0) := by
  have run : (submitCurrentPart k).run h = submitCurrentPart k h := rfl
  rw [submitCurrentPart] at run
  cases current : h.current with
  | none =>
    rw [current] at run
    exact .of_ok run ⟨w, fun part found => by cases current.symm.trans found⟩
  | some part =>
    rw [current] at run
    dsimp only at run
    by_cases full : part.bytes = k.partSize
    · rw [if_pos full] at run
      obtain ⟨_, content, _⟩ := (w.good.part part current).close
      have counted := (w.good.part part current).bytes
      obtain ⟨good, same, state, each⟩ := w
      have total := good.content
      rw [Handle.currentContent, current] at total
      have rest : Good { h with current := none, reservation := false } h.submitted.flatten :=
        good.released
      have ends := submitPart_ends (k := k) part.close rest rfl same.congr
      rw [Ends] at ends ⊢
      rw [run]
      generalize (submitPart k part.close).run { h with current := none, reservation := false } =
        result at ends ⊢
      obtain ⟨_ | _, h'⟩ := result
      · exact ends
      · obtain ⟨good', same', none', state', submitted⟩ := ends
        rw [content] at good' submitted
        have all : h.submitted.flatten ++ part.content = taken := total
        rw [all] at good'
        refine ⟨⟨good', same', state'.trans state, ?_⟩, ?_⟩
        · intro body mem
          rw [submitted, mem_append, mem_singleton] at mem
          obtain mem | rfl := mem
          · exact each body mem
          · rw [← counted, full]
        · intro other found
          cases none'.symm.trans found
    · rw [if_neg full] at run
      refine .of_ok run ⟨w, fun other found => ?_⟩
      obtain rfl := some.inj (current.symm.trans found)
      exact Nat.lt_of_le_of_ne (fits part current) full

lemma inputBytes_cons (buf : FuseBuf) (rest : List FuseBuf) :
    inputBytes (buf :: rest) = buf.data ++ inputBytes rest := rfl

lemma turn_ends (w : Writing k h0 h taken) (room : Room k h) {buf off cursor remaining}
    (left : off < buf.data.length) (stream : buf.isFd = true → buf.seek = false → cursor = off)
    (some : 0 < remaining) :
    Ends (turn k buf off cursor remaining) h
      (fun r h' => Writing k h0 h' (taken ++ (buf.data.drop off).take r.1) ∧ Room k h' ∧ 0 < r.1 ∧
        r.1 ≤ remaining ∧ off + r.1 ≤ buf.data.length ∧
        (buf.isFd = true → buf.seek = false → r.2 = off + r.1)) (Fails h0) := by
  refine (ensureCurrentPart_ends w room).bind ?_
  rintro part h1 ⟨w1, current, space⟩
  have inside : off + min remaining (min (buf.data.length - off) (k.partSize - part.bytes)) ≤
      buf.data.length := by omega
  refine (retain_ends w1 current inside stream).bind ?_
  rintro cursor' h2 ⟨w2, ⟨part', current', counted⟩, stream'⟩
  refine (submitCurrentPart_ends w2 ?_).bind ?_
  · intro other found
    obtain rfl := Option.some.inj (current'.symm.trans found)
    omega
  · rintro _ h3 ⟨w3, room3⟩
    exact ends_pure ⟨w3, room3, by dsimp only; omega, by dsimp only; omega, inside, stream'⟩

lemma transfer_ends (fuel : Nat) (bufs : List FuseBuf) (off cursor remaining : Nat)
    (w : Writing k h0 h taken) (room : Room k h)
    (data : off + remaining ≤ (inputBytes bufs).length)
    (inside : ∀ buf ∈ bufs.head?, off ≤ buf.data.length ∧
      (buf.isFd = true → buf.seek = false → cursor = off))
    (enough : remaining + bufs.length ≤ fuel) :
    Ends (transfer k fuel bufs off cursor remaining) h
      (fun _ h' => Writing k h0 h' (taken ++ ((inputBytes bufs).drop off).take remaining) ∧
        Room k h')
      (Fails h0) := by
  induction fuel generalizing bufs off cursor remaining h taken with
  | zero =>
    obtain rfl : remaining = 0 := by omega
    rw [transfer, take_zero, append_nil]
    exact ends_pure ⟨w, room⟩
  | succ fuel ih =>
    cases remaining with
    | zero =>
      rw [transfer, take_zero, append_nil]
      exact ends_pure ⟨w, room⟩
    | succ remaining =>
      cases bufs with
      | nil => exact absurd data (by show ¬off + (remaining + 1) ≤ 0; omega)
      | cons buf rest =>
        obtain ⟨within, stream⟩ := inside buf rfl
        rw [inputBytes_cons, length_append] at data
        rw [length_cons] at enough
        have next : ∀ buf ∈ rest.head?, 0 ≤ buf.data.length ∧
            (buf.isFd = true → buf.seek = false → 0 = 0) := fun _ _ =>
              ⟨Nat.zero_le _, fun _ _ => rfl⟩
        rw [transfer, inputBytes_cons]
        by_cases empty : buf.data.length - off = 0
        · -- the buffer is used up
          rw [if_pos empty]
          have ends := ih rest 0 0 (remaining + 1) w room (by omega) next (by omega)
          rw [drop_append_of_le_length within, drop_of_length_le (by omega), nil_append]
          rwa [drop_zero] at ends
        · rw [if_neg empty]
          refine (turn_ends w room (by omega) stream (Nat.succ_pos _)).bind ?_
          rintro ⟨count, cursor'⟩ h' ⟨w', room', pos, le, upto, stream'⟩
          have split : (taken ++ (buf.data.drop off).take count) ++
              ((buf.data ++ inputBytes rest).drop (off + count)).take (remaining + 1 - count) =
              taken ++ ((buf.data ++ inputBytes rest).drop off).take (remaining + 1) := by
            have first : (buf.data.drop off).take count =
                ((buf.data ++ inputBytes rest).drop off).take count := by
              rw [drop_append_of_le_length within, take_append_of_le_length]
              rw [length_drop]
              omega
            rw [first, append_assoc, ← drop_drop, ← take_add, Nat.add_sub_cancel' le]
          rw [← split]
          by_cases done : off + count = buf.data.length
          · rw [if_pos done]
            have ends := ih rest 0 0 (remaining + 1 - count) w' room' (by omega) next (by omega)
            rw [done, drop_left]
            rwa [drop_zero] at ends
          · rw [if_neg done]
            refine ih (buf :: rest) (off + count) cursor' (remaining + 1 - count) w' room' ?_ ?_ ?_
            · rw [inputBytes_cons, length_append]
              omega
            · intro other same
              cases same
              exact ⟨upto, stream'⟩
            · rw [length_cons]
              omega

end

/-! ### Runs of a handle -/

def Reply.failure : Reply → Bool
  | .writeFailed _ => true
  | .partFailed _ => true
  | _ => false

def Cut (k : Setting) (bodies : List (List UInt8)) : Prop :=
  (∀ body ∈ bodies.dropLast, body.length = k.partSize) ∧
    ∀ body ∈ bodies, 0 < body.length ∧ body.length ≤ k.partSize

/-- In one body if no part was ever submitted, and in the numbered parts otherwise. -/
def Exact (k : Setting) (h : Handle) : Prop :=
  match h.commit with
  | some (.put body) => h.submitted = [] ∧ body = h.written
  | some (.complete bodies) =>
    h.submitted ≠ [] ∧ bodies = h.submitted ∧ bodies.flatten = h.written ∧
      Cut k bodies ∧ bodies.length ≤ kMaximumMultipartParts
  | none => False

def HandleInv (k : Setting) (h : Handle) : Prop :=
  match h.writeState with
  | .open => Writing k h h h.written ∧ Room k h ∧ h.streamOffset = h.written.length ∧
      .flushed ∉ h.log ∧ ∀ r ∈ h.log, r.failure = false
  | .sealing => Good h h.written ∧ h.currentContent = [] ∧ h.submitted ≠ [] ∧ Cut k h.submitted ∧
      .flushed ∉ h.log ∧ ∀ r ∈ h.log, r.failure = false
  | .sealed => Exact k h ∧ h.pending = [] ∧ ∀ r ∈ h.log, r.failure = false
  | .failed _ => .flushed ∉ h.log

section
variable {k : Setting} {h h' : Handle}

lemma handleInv_failed {errno} (state : h.writeState = .failed errno)
    (unflushed : .flushed ∉ h.log) : HandleInv k h := by
  rw [HandleInv, state]
  exact unflushed

lemma Quiet.not_mem {h0} (quiet : Quiet h0 h) {r}
    (other : ∀ number, r ≠ .partFailed number) (absent : r ∉ h0.log) : r ∉ h.log := by
  intro mem
  obtain mem | ⟨number, same⟩ := quiet r mem
  · exact absent mem
  · exact other number same

lemma Quiet.unflushed {h0} (quiet : Quiet h0 h) (unflushed : .flushed ∉ h0.log) :
    .flushed ∉ h.log :=
  quiet.not_mem nofun unflushed

lemma HandleInv.reply (inv : HandleInv k h) {r} (harmless : r.failure = false)
    (other : r ≠ .flushed) : HandleInv k (h.reply r) := by
  have state : (h.reply r).writeState = h.writeState := rfl
  have unflushed : .flushed ∉ h.log → .flushed ∉ (h.reply r).log := by
    exact not_mem_cons_of_ne_of_not_mem other.symm
  have clean : (∀ old ∈ h.log, old.failure = false) →
      ∀ old ∈ (h.reply r).log, old.failure = false := by
    exact fun clean => forall_mem_cons.2 ⟨harmless, clean⟩
  rw [HandleInv] at inv ⊢
  rw [state]
  split at inv
  · obtain ⟨⟨good, same, opened, full⟩, room, offset, no, none⟩ := inv
    exact ⟨⟨good.congr, .refl _, opened, full⟩, room, offset, unflushed no, clean none⟩
  · obtain ⟨good, current, some, cut, no, none⟩ := inv
    exact ⟨good.congr, current, some, cut, unflushed no, clean none⟩
  · exact ⟨inv.1, inv.2.1, clean inv.2.2⟩
  · exact unflushed inv

lemma HandleInv.unflushed (inv : HandleInv k h) (unsealed : h.writeState ≠ .sealed) :
    .flushed ∉ h.log := by
  rw [HandleInv] at inv
  split at inv
  · exact inv.2.2.2.1
  · exact inv.2.2.2.2.1
  · rename_i sealed
    exact absurd sealed unsealed
  · exact inv

lemma refusal_none {offset length} (accepted : refusal k h offset length = none)
    (some : length ≠ 0) : h.writeState = .open ∧ offset.toNat = h.streamOffset := by
  cases state : h.writeState with
  | «open» =>
    simp only [refusal, if_neg some, state] at accepted
    split_ifs at accepted with _ _ _ at_end
    exact ⟨rfl, not_not.1 at_end⟩
  | sealing | sealed | failed errno =>
    simp only [refusal, if_neg some, state] at accepted
    split_ifs at accepted

lemma write_ends {taken} (w : Writing k h h taken) (room : Room k h) (input : List FuseBuf) :
    Ends (transfer k ((inputBytes input).length + input.length) input 0 0 (inputBytes input).length)
      h (fun _ h' => Writing k h h' (taken ++ inputBytes input) ∧ Room k h') (Fails h) := by
  have ends := transfer_ends ((inputBytes input).length + input.length) input 0 0
    (inputBytes input).length w room (by omega)
    (fun _ _ => ⟨Nat.zero_le _, fun _ _ => rfl⟩) (Nat.le_refl _)
  rwa [drop_zero, take_length] at ends

/-- All a write can do to a handle. -/
lemma HandleInv.write_cases (inv : HandleInv k h) (offset : Int) (input : List FuseBuf) :
    (∃ r, r.failure = false ∧ r ≠ .flushed ∧ write k offset input h = h.reply r) ∨
      h.writeState = .open ∧
        ((∃ stop h', Fails h stop h' ∧
          write k offset input h = (h'.failWrite stop.errno).reply (.writeFailed stop)) ∨
        ∃ h', Writing k h h' (h.written ++ inputBytes input) ∧ Room k h' ∧
          write k offset input h = Handle.reply (.wrote (inputBytes input).length) { h' with
            streamOffset := h.streamOffset + (inputBytes input).length
            written := h.written ++ inputBytes input }) := by
  rw [Upload.write]
  cases refused : refusal k h offset (inputBytes input).length with
  | some errno => exact .inl ⟨.refused errno, rfl, nofun, rfl⟩
  | none =>
    by_cases empty : (inputBytes input).length = 0
    · exact .inl ⟨.wrote 0, rfl, nofun, if_pos empty⟩
    · rw [if_neg empty]
      obtain ⟨opened, at_end⟩ := refusal_none refused empty
      rw [HandleInv, opened] at inv
      have ends := write_ends inv.1 inv.2.1 input
      unfold Ends at ends
      generalize (transfer k ((inputBytes input).length + input.length) input 0 0
        (inputBytes input).length).run h = result at ends ⊢
      refine .inr ⟨opened, ?_⟩
      obtain ⟨stop | _, h'⟩ := result
      · exact .inl ⟨stop, h', ends, rfl⟩
      · refine .inr ⟨h', ends.1, ends.2, ?_⟩
        rw [at_end, ← ends.1.same.written]

lemma HandleInv.write (inv : HandleInv k h) (offset : Int) (input : List FuseBuf) :
    HandleInv k (write k offset input h) := by
  obtain ⟨r, harmless, other, shape⟩ | ⟨opened, cases⟩ := inv.write_cases offset input
  · rw [shape]
    exact inv.reply harmless other
  · rw [HandleInv, opened] at inv
    obtain ⟨-, -, length, unflushed, clean⟩ := inv
    obtain ⟨stop, h', ⟨-, quiet⟩, shape⟩ | ⟨h', written, room', shape⟩ := cases
    · rw [shape]
      obtain ⟨errno, failed⟩ := failWrite_failed h' stop.errno
      refine handleInv_failed failed (not_mem_cons_of_ne_of_not_mem nofun ?_)
      rw [failWrite_log]
      exact quiet.unflushed unflushed
    · obtain ⟨good, same, opened', full⟩ := written
      have state : (Upload.write k offset input h).writeState = .open := by
        rw [shape]
        exact opened'
      rw [HandleInv, state, shape]
      refine ⟨⟨good.congr, .refl _, opened', full⟩, room', ?_, ?_, ?_⟩
      · show h.streamOffset + (inputBytes input).length = (h.written ++ inputBytes input).length
        rw [length_append, length]
      · refine not_mem_cons_of_ne_of_not_mem nofun ?_
        rw [same.log]
        exact unflushed
      · refine forall_mem_cons.2 ⟨rfl, ?_⟩
        rw [same.log]
        exact clean

lemma HandleInv.event (inv : HandleInv k h) (e : HandleEvent) : HandleInv k (h.event e) := by
  obtain ⟨quiet, cases⟩ := event_cases h e
  by_cases sealed : h.writeState = .sealed
  · -- no job is left
    rw [HandleInv, sealed] at inv
    obtain ⟨exact_, idle, clean⟩ := inv
    cases e with
    | unlink =>
      have shape : h.event .unlink = { h with unlinked := true } := by
        rw [Handle.event, Handle.unlink, sealed]
      rw [shape, HandleInv, show Handle.writeState { h with unlinked := true } =
        .sealed from sealed]
      exact ⟨exact_, idle, clean⟩
    | partDone number stored ok =>
      have none : h.event (.partDone number stored ok) = h := by
        rw [Handle.event, idle]
        rfl
      rw [none, HandleInv, sealed]
      exact ⟨exact_, idle, clean⟩
  · have unflushed := quiet.unflushed (inv.unflushed sealed)
    obtain ⟨errno, failed⟩ | ⟨state, same, submitted, current, good⟩ := cases
    · exact handleInv_failed failed unflushed
    · rw [HandleInv] at inv ⊢
      rw [state]
      split at inv
      · rename_i opened
        obtain ⟨w, room, offset, _, clean⟩ := inv
        refine ⟨⟨?_, .refl _, state.trans opened, submitted ▸ w.full⟩, ?_, ?_, unflushed,
          same.log ▸ clean⟩
        · rw [same.written]
          exact good _ w.good
        · rw [Room, current]
          exact room
        · rw [same.streamOffset, same.written]
          exact offset
      · obtain ⟨w, empty, some, cut, _, clean⟩ := inv
        refine ⟨?_, ?_, submitted ▸ some, submitted ▸ cut, unflushed, same.log ▸ clean⟩
        · rw [same.written]
          exact good _ w
        · rw [Handle.currentContent, current]
          exact empty
      · rename_i closed
        exact absurd closed sealed
      · exact unflushed

lemma handleInv_flushFails {errno} (unflushed : .flushed ∉ h.log) :
    HandleInv k (h.flushFails errno) := by
  obtain ⟨e, failed⟩ := failWrite_failed h errno
  refine handleInv_failed failed (not_mem_cons_of_ne_of_not_mem nofun ?_)
  show .flushed ∉ (h.failWrite errno).log
  rw [failWrite_log]
  exact unflushed

lemma Good.idle {taken} (good : Good h taken) (none : h.submitted = []) : h.pending = [] := by
  refine eq_nil_iff_forall_not_mem.2 fun job mem => ?_
  obtain ⟨_, own⟩ := good.jobs job mem
  rw [none] at own
  cases own

section
variable {bodies : List (List UInt8)} (full : ∀ body ∈ bodies, body.length = k.partSize)
include full

lemma Cut.of_full : Cut k bodies := by
  refine ⟨fun body mem => full body (dropLast_subset _ mem), fun body mem => ?_⟩
  rw [full body mem]
  exact ⟨k.partSize_pos, Nat.le_refl _⟩

lemma Cut.concat {last} (some : 0 < last.length) (fits : last.length ≤ k.partSize) :
    Cut k (bodies ++ [last]) := by
  refine ⟨?_, fun body mem => ?_⟩
  · rw [dropLast_concat]
    exact full
  · rw [mem_append, mem_singleton] at mem
    obtain mem | rfl := mem
    · exact (Cut.of_full full).2 body mem
    · exact ⟨some, fits⟩

end

lemma HandleInv.flush (inv : HandleInv k h) {put} (step : flush k put h = some h') :
    HandleInv k h' := by
  rw [Upload.flush] at step
  by_cases unlinked : h.unlinked = true
  · rw [if_pos unlinked] at step
    cases step
    exact inv.reply rfl nofun
  · rw [if_neg unlinked] at step
    cases state : h.writeState with
    | sealing =>
      rw [state] at step
      cases step
    | failed errno =>
      rw [state] at step
      cases step
      exact inv.reply rfl nofun
    | sealed =>
      rw [state] at step
      cases step
      rw [HandleInv, state] at inv
      rw [HandleInv, show (h.reply .flushed).writeState = .sealed from state]
      exact ⟨inv.1, inv.2.1, forall_mem_cons.2 ⟨rfl, inv.2.2⟩⟩
    | «open» =>
      rw [state] at step
      rw [HandleInv, state] at inv
      obtain ⟨⟨good, _, _, full⟩, room, _, unflushed, clean⟩ := inv
      by_cases single : (!h.multipartRequired) = true
      · -- nothing has been submitted: the current part is all there is
        rw [if_pos single] at step
        have none : h.submitted = [] := by
          rw [good.required, Bool.not_not] at single
          exact isEmpty_iff.1 single
        by_cases ok : put.ok = true
        · rw [if_pos ok] at step
          cases step
          refine ⟨⟨none, ?_⟩, good.idle none, forall_mem_cons.2 ⟨rfl, clean⟩⟩
          have content := good.content
          rw [none] at content
          exact content
        · rw [if_neg ok] at step
          cases step
          exact handleInv_flushFails unflushed
      · rw [if_neg single] at step
        have some : h.submitted ≠ [] := by
          intro none
          rw [good.required, none] at single
          exact single rfl
        have content := good.content
        rw [Handle.currentContent] at content
        cases current : h.current with
        | none =>
          rw [current] at step content
          cases step
          exact ⟨{ good with content := content, part := nofun },
            rfl, some, .of_full full, unflushed, clean⟩
        | some part =>
          rw [current] at step content
          dsimp only at step
          have ok := good.part part current
          by_cases more : part.bytes ≠ 0
          · rw [if_pos more] at step
            obtain ⟨_, closed, _⟩ := ok.close
            let sealing : Handle := { h with
              writeState := .sealing, reservation := false, flushing := true, current := none }
            have ends :=
              submitPart_ends (k := k) (h := sealing) part.close good.released rfl (.refl _)
            rw [Ends] at ends
            generalize (submitPart k part.close).run sealing = result at ends step
            obtain ⟨stop | _, h1⟩ := result
            · cases step
              exact handleInv_flushFails (ends.2.unflushed unflushed)
            · obtain rfl := Option.some.inj step
              obtain ⟨good', same, none', state', submitted⟩ := ends
              rw [HandleInv, show h1.writeState = .sealing from state']
              have all : h.submitted.flatten ++ part.content = h.written := content
              have empty : h1.currentContent = [] := by
                rw [Handle.currentContent, none']
                rfl
              have written : h1.written = h.written := same.written
              have log : h1.log = h.log := same.log
              rw [closed] at good' submitted
              rw [all] at good'
              rw [written, log]
              refine ⟨good', empty, ?_, ?_, unflushed, clean⟩
              · rw [submitted]
                exact append_ne_nil_of_right_ne_nil _ (cons_ne_nil _ _)
              · rw [submitted]
                have counted := ok.bytes
                have fits := room part current
                exact .concat full (by omega) (by omega)
          · rw [if_neg more] at step
            cases step
            have empty : part.content = [] :=
              eq_nil_of_length_eq_zero (ok.bytes ▸ not_not.1 more)
            exact ⟨{ good with
                content := content
                part := fun other same => good.part other (current.trans same) }, empty, some,
              .of_full full, unflushed, clean⟩

lemma Good.bodies {taken} (good : Good h taken) (idle : h.pending = []) :
    h.bodies = h.submitted := by
  refine ext_getElem? fun i => ?_
  rw [Handle.bodies, good.etags, getElem?_map]
  by_cases inside : i < h.submitted.length
  · rw [getElem?_range inside, getElem?_eq_getElem inside]
    cases good.done i _ (getElem?_eq_getElem inside) with
    | inl waiting =>
      obtain ⟨part, mem⟩ := waiting
      rw [idle] at mem
      cases mem
    | inr stored => rw [map_some, stored.2, getD_some]
  · rw [getElem?_eq_none (by rw [length_range]; omega), getElem?_eq_none (by omega)]
    rfl

lemma HandleInv.flushEnd (inv : HandleInv k h) {complete}
    (step : flushEnd complete h = some h') : HandleInv k h' := by
  have flushing : ¬(!h.flushing) = true := by
    intro idle
    rw [Upload.flushEnd, if_pos idle] at step
    cases step
  rw [Upload.flushEnd, if_neg flushing] at step
  cases state : h.writeState with
  | «open» | sealed =>
    rw [state] at step
    cases step
  | failed errno =>
    rw [state] at step
    cases step
    have unflushed := inv.unflushed (by rw [state]; exact nofun)
    exact handleInv_failed rfl (not_mem_cons_of_ne_of_not_mem nofun unflushed)
  | sealing =>
    rw [state] at step
    rw [HandleInv, state] at inv
    obtain ⟨good, empty, some, cut, unflushed, clean⟩ := inv
    split_ifs at step with pending etags ok
    · cases step
      exact handleInv_flushFails unflushed
    · cases step
      have idle : h.pending = [] := by simpa using pending
      have content := good.content
      rw [empty, append_nil] at content
      refine ⟨⟨some, good.bodies idle, ?_⟩, idle, forall_mem_cons.2 ⟨rfl, clean⟩⟩
      rw [good.bodies idle]
      exact ⟨content, cut, good.bound⟩
    · cases step
      exact handleInv_flushFails unflushed

lemma HandleInv.step (inv : HandleInv k h) {a} (step : handleStep k h a = some h') :
    HandleInv k h' := by
  cases a with
  | write offset input =>
    cases step
    exact inv.write offset input
  | event e =>
    cases step
    exact inv.event e
  | flush put => exact inv.flush step
  | flushEnd complete => exact inv.flushEnd step

lemma handleInv_openHandle (k : Setting) : HandleInv k openHandle := by
  refine ⟨⟨⟨rfl, rfl, rfl, rfl, Nat.zero_le _, nofun, nofun, ?_⟩, .refl _, rfl, nofun⟩, nofun,
    rfl, nofun, nofun⟩
  intro i body found
  cases found

/-- No write ends because its loops have no turns left. -/
def Turns (h : Handle) : Prop := .writeFailed .exhausted ∉ h.log

lemma Turns.reply (turns : Turns h) {r} (other : r ≠ .writeFailed .exhausted) : Turns (h.reply r) :=
  not_mem_cons_of_ne_of_not_mem other.symm turns

lemma Turns.quiet (turns : Turns h) (quiet : Quiet h h') : Turns h' := quiet.not_mem nofun turns

lemma Turns.flushFails (turns : Turns h) (errno : Errno) : Turns (h.flushFails errno) := by
  refine Turns.reply ?_ nofun
  rw [Turns, failWrite_log]
  exact turns

lemma submitPart_log (k : Setting) {part r}
    (ran : (submitPart k part).run h = (r, h')) : h'.log = h.log := by
  have run : submitPart k part h = (r, h') := ran
  rw [submitPart] at run
  split at run
  · cases run
    rfl
  · split at run
    all_goals
      cases run
      rfl

lemma Turns.step (turns : Turns h) (inv : HandleInv k h) {a}
    (step : handleStep k h a = some h') : Turns h' := by
  cases a with
  | write offset input =>
    cases step
    obtain ⟨r, harmless, -, shape⟩ | ⟨-, cases⟩ := inv.write_cases offset input
    · rw [shape]
      refine turns.reply ?_
      rintro rfl
      cases harmless
    · obtain ⟨stop, h1, ⟨left, quiet⟩, shape⟩ | ⟨h1, w, -, shape⟩ := cases
      · rw [shape]
        refine Turns.reply ?_ ?_
        · rw [Turns, failWrite_log]
          exact turns.quiet quiet
        · intro same
          exact left (Reply.writeFailed.inj same)
      · rw [shape]
        exact Turns.reply (turns.quiet w.same.quiet) nofun
  | event e =>
    cases step
    exact turns.quiet (event_cases h e).1
  | flush put =>
    simp only [handleStep, flush] at step
    split at step
    · cases step
      exact turns.reply nofun
    · split at step
      · cases step
        exact turns.reply nofun
      · cases step
        exact turns.reply nofun
      · cases step
      · split at step
        · split at step
          · cases step
            exact Turns.reply turns nofun
          · cases step
            exact Turns.flushFails (by exact turns) _
        · split at step
          · split at step
            · split at step
              · rename_i ran
                cases step
                rw [Turns, submitPart_log k ran]
                exact turns
              · rename_i ran
                cases step
                refine Turns.flushFails ?_ _
                rw [Turns, submitPart_log k ran]
                exact turns
            · cases step
              exact turns
          · cases step
            exact turns
  | flushEnd complete =>
    simp only [handleStep, flushEnd] at step
    split at step
    · cases step
    · split at step
      · cases step
        exact Turns.reply turns nofun
      · split_ifs at step
        · cases step
          exact turns.flushFails _
        · cases step
          exact Turns.reply turns nofun
        · cases step
          exact turns.flushFails _
      · cases step

/-- In every run of a handle: a flush that succeeds has committed exactly the bytes of the accepted
writes, in full parts numbered from 1 with the rest in the last, or in one body if no part was
submitted; a handle with a failed part, or a write that failed in the middle of its data, has no
successful flush. -/
theorem write_through_exact {as : List HandleAction}
    (ran : run (handleStep k) openHandle as = some h) :
    (.flushed ∈ h.log → Exact k h) ∧
      ((∃ r ∈ h.log, r.failure = true) → .flushed ∉ h.log) ∧ Turns h := by
  have inv : HandleInv k h ∧ Turns h :=
    run_inv (I := fun h => HandleInv k h ∧ Turns h)
      (fun _ _ _ inv step =>
        ⟨inv.1.step step, inv.2.step inv.1 step⟩) ⟨handleInv_openHandle k, nofun⟩ ran
  refine ⟨fun flushed => ?_, ?_, inv.2⟩
  · by_cases sealed : h.writeState = .sealed
    · have inv := inv.1
      rw [HandleInv, sealed] at inv
      exact inv.1
    · exact absurd flushed (inv.1.unflushed sealed)
  · rintro ⟨r, mem, failure⟩ flushed
    by_cases sealed : h.writeState = .sealed
    · have inv := inv.1
      rw [HandleInv, sealed] at inv
      rw [inv.2.2 r mem] at failure
      cases failure
    · exact inv.1.unflushed sealed flushed

/-- A handle that seals takes no more bytes; one that is sealed or has failed stays as it is. -/
def Onward (h h' : Handle) : Prop :=
  match h.writeState with
  | .open => True
  | .sealing => h'.writeState ≠ .open ∧ h'.written = h.written
  | _ => h'.writeState = h.writeState ∧ h'.commit = h.commit ∧ h'.written = h.written

lemma Onward.of_open (opened : h.writeState = .open) : Onward h h' := by
  rw [Onward, opened]
  trivial

lemma Onward.of_same (state : h'.writeState = h.writeState) (commit : h'.commit = h.commit)
    (written : h'.written = h.written) : Onward h h' := by
  rw [Onward]
  split
  · trivial
  · rename_i sealing
    refine ⟨?_, written⟩
    rw [state, sealing]
    exact nofun
  · exact ⟨state, commit, written⟩

lemma Onward.trans {h''} (first : Onward h h') (second : Onward h' h'') : Onward h h'' := by
  cases state : h.writeState with
  | «open» => exact .of_open state
  | sealing =>
    rw [Onward, state] at first ⊢
    obtain ⟨left, written⟩ := first
    cases state' : h'.writeState with
    | «open» => exact absurd state' left
    | sealing =>
      rw [Onward, state'] at second
      exact ⟨second.1, second.2.trans written⟩
    | sealed | failed errno =>
      rw [Onward, state'] at second
      exact ⟨by rw [second.1]; exact nofun, second.2.2.trans written⟩
  | sealed | failed errno =>
    rw [Onward, state] at first ⊢
    obtain ⟨same, commit, written⟩ := first
    rw [Onward, same] at second
    exact ⟨second.1, second.2.1.trans commit, second.2.2.trans written⟩

lemma Onward.failWrite (onward : Onward h h') (unsealed : h'.writeState ≠ .sealed) {errno} :
    Onward h (h'.failWrite errno) := by
  refine onward.trans ?_
  cases state : h'.writeState with
  | «open» => exact .of_open state
  | sealed => exact absurd state unsealed
  | sealing =>
    rw [Onward, Handle.failWrite, state]
    exact ⟨nofun, rfl⟩
  | failed e =>
    rw [Handle.failWrite, state]
    exact .of_same rfl rfl rfl

lemma Onward.reply (onward : Onward h h') {r} : Onward h (h'.reply r) :=
  onward.trans (.of_same rfl rfl rfl)

lemma Onward.partDone (unsealed : h.writeState ≠ .sealed) (number : Nat) (part : RetainedPart)
    (stored ok : Bool) : Onward h (h.partDone number part stored ok) := by
  rw [Handle.partDone]
  dsimp only
  by_cases fine : (ok && !h.unlinked) = true
  · rw [if_pos fine]
    exact .of_same rfl rfl rfl
  · rw [if_neg fine]
    refine .reply (.failWrite ?_ ?_)
    · exact .of_same rfl rfl rfl
    · exact unsealed

lemma HandleInv.onward (inv : HandleInv k h) {a} (step : handleStep k h a = some h') :
    Onward h h' := by
  by_cases opened : h.writeState = .open
  · exact .of_open opened
  have still : Onward h h := .of_same rfl rfl rfl
  cases a with
  | write offset input =>
    cases step
    obtain ⟨r, -, -, shape⟩ | ⟨no, -⟩ := inv.write_cases offset input
    · rw [shape]
      exact still.reply
    · exact absurd no opened
  | flush put =>
    rw [handleStep, Upload.flush] at step
    split at step
    · cases step
      exact still.reply
    · split at step
      · cases step
        exact still.reply
      · cases step
        exact still.reply
      · cases step
      · contradiction
  | flushEnd complete =>
    rw [handleStep, Upload.flushEnd] at step
    split at step
    · cases step
    · split at step
      · cases step
        exact .of_same rfl rfl rfl
      · rename_i sealing
        have failing (errno : Errno) : Onward h (h.flushFails errno) :=
          (still.failWrite (by rw [sealing]; exact nofun)).trans (.of_same rfl rfl rfl)
        split_ifs at step
        · cases step
          exact failing _
        · cases step
          rw [Onward, sealing]
          exact ⟨nofun, rfl⟩
        · cases step
          exact failing _
      · cases step
  | event e =>
    cases step
    cases e with
    | unlink =>
      rw [Handle.event, Handle.unlink]
      split
      · exact still
      · exact .of_same rfl rfl rfl
      · rename_i unsealed
        refine .failWrite ?_ ?_
        · exact .of_same rfl rfl rfl
        · exact unsealed
    | partDone number stored ok =>
      rw [Handle.event]
      split
      · rename_i job found
        refine .partDone (fun sealed => ?_) number job.2 stored ok
        -- a sealed handle has no job left that could fail it
        rw [HandleInv, sealed] at inv
        rw [inv.2.1] at found
        cases found
      · exact still

/-- In every run of a handle, what it has come to is never undone: writes end with the sealing, and
the first failure or the commit is the last. -/
theorem handle_goes_onward {as bs} (ran : run (handleStep k) openHandle as = some h)
    (more : run (handleStep k) h bs = some h') : Onward h h' := by
  have inv : HandleInv k h :=
    run_inv (fun _ _ _ inv step => inv.step step) (handleInv_openHandle k) ran
  exact (run_inv (I := fun t => HandleInv k t ∧ Onward h t)
    (fun _ _ _ kept step => ⟨kept.1.step step, kept.2.trans (kept.1.onward step)⟩)
    ⟨inv, .of_same rfl rfl rfl⟩ more).2

end

/-- The kernel moves two bytes at a time, and not at all at some calls. -/
def smallSetting : Setting where
  pipe _ := .ok 3
  splice n := if n % 5 = 2 then .unsupported else if n % 3 = 1 then .moved 2 else .moved 1
  read _ := .got 0
  write _ := .ok ()
  pipe_pos _ _ same := Except.ok.inj same ▸ Nat.succ_pos 2
  submit _ := .ok ()
  others _ := []
  partSize := 4
  partSize_pos := Nat.succ_pos 3

def smallRun : List HandleAction :=
  [.write 0 [⟨[1, 2, 3], true, true, 0⟩, ⟨[4, 5, 6], false, false, 0⟩],
    .write 6 [⟨[7, 8, 9, 10, 11], true, false, 0⟩],
    .event (.partDone 2 true true), .flush ⟨true, .eio⟩, .event (.partDone 3 true true),
    .event (.partDone 1 true true), .flushEnd ⟨true, .eio⟩]

theorem write_through_exact_small :
    let h := final (handleStep smallSetting) openHandle smallRun
    .flushed ∈ h.log ∧ h.commit = some (.complete [[1, 2, 3, 4], [5, 6, 7, 8], [9, 10, 11]]) ∧
      (.flushed ∈ h.log → Exact smallSetting h) := by
  refine ⟨by decide +kernel, by decide +kernel, ?_⟩
  exact (write_through_exact (run_final (by decide +kernel))).1

/-- A write that is not sequential fails, and the flush after it succeeds. -/
theorem flushed_after_refused_write :
    let h := final (handleStep smallSetting) openHandle
      [.write 0 [⟨[1], false, false, 0⟩], .write 5 [⟨[2], false, false, 0⟩], .flush ⟨true, .eio⟩]
    h.log = [.flushed, .refused .espipe, .wrote 1] := by
  decide +kernel

theorem handle_goes_onward_small :
    let h := final (handleStep smallSetting) openHandle [.flush ⟨true, .eio⟩]
    Onward h (final (handleStep smallSetting) h [.write 0 [⟨[1], false, false, 0⟩]]) :=
  handle_goes_onward (run_final (by decide +kernel)) (run_final (by decide +kernel))

end Ngs3fs.Upload
