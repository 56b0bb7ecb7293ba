import Mathlib.Control.Monad.Basic
import Mathlib.Tactic.Common

/-!
# Programs that change a state and may fail

A program over a state `σ` with errors `ε` is an `ExceptT ε (StateM σ)`: what it has changed stays
changed when it fails. `Keeps I m` says that `m` keeps an invariant however it ends. -/

namespace Program

variable {σ ε α β : Type} {I : σ → Prop}

def Keeps (I : σ → Prop) (m : ExceptT ε (StateM σ) α) : Prop := ∀ s, I s → I (m.run s).2

lemma keeps_pure (a : α) : Keeps I (pure a : ExceptT ε (StateM σ) α) := fun _ h => h

lemma keeps_throw (e : ε) : Keeps I (throw e : ExceptT ε (StateM σ) α) := fun _ h => h

lemma run_pure (a : α) (s : σ) : (pure a : ExceptT ε (StateM σ) α).run s = (.ok a, s) := rfl

lemma run_bind (m : ExceptT ε (StateM σ) α) (f : α → ExceptT ε (StateM σ) β) (s : σ) :
    (m >>= f).run s =
      match m.run s with
      | (.ok a, s) => (f a).run s
      | (.error e, s) => (.error e, s) := by
  change (StateT.bind m.run (ExceptT.bindCont f)) s = _
  rw [StateT.bind]
  obtain ⟨_ | a, s'⟩ := m.run s
  all_goals rfl

lemma run_tryCatch (m : ExceptT ε (StateM σ) α) (f : ε → ExceptT ε (StateM σ) α) (s : σ) :
    (tryCatch m f).run s =
      match m.run s with
      | (.ok a, s) => (.ok a, s)
      | (.error e, s) => (f e).run s := by
  change (StateT.bind m.run fun r =>
    match r with
    | .ok a => pure (.ok a)
    | .error e => (f e).run) s = _
  rw [StateT.bind]
  obtain ⟨_ | a, s'⟩ := m.run s
  all_goals rfl

variable {m : ExceptT ε (StateM σ) α} {f : α → ExceptT ε (StateM σ) β} {s : σ}

lemma after_bind (hm : I (m.run s).2) (hf : ∀ a, Keeps I (f a)) : I ((m >>= f).run s).2 := by
  rw [run_bind]
  generalize m.run s = result at hm ⊢
  obtain ⟨_ | a, s'⟩ := result
  · exact hm
  · exact hf a s' hm

lemma Keeps.bind (hm : Keeps I m) (hf : ∀ a, Keeps I (f a)) : Keeps I (m >>= f) :=
  fun s h => after_bind (hm s h) hf

/-- The second program is run only with what the first can return. -/
lemma Keeps.bind_returned (hm : Keeps I m) (hf : ∀ a s s', m.run s = (.ok a, s') → Keeps I (f a)) :
    Keeps I (m >>= f) := by
  intro s h
  have kept := hm s h
  rw [run_bind]
  cases ran : m.run s with
  | mk result s' =>
    rw [ran] at kept
    cases result with
    | error e => exact kept
    | ok a => exact hf a s s' ran s' kept

lemma Keeps.tryCatch {f} (hm : Keeps I m) (hf : ∀ e, Keeps I (f e)) : Keeps I (tryCatch m f) := by
  intro s h
  have kept := hm s h
  rw [run_tryCatch]
  generalize m.run s = result at kept ⊢
  obtain ⟨e | a, s'⟩ := result
  · exact hf e s' kept
  · exact kept

lemma Keeps.ite {p} [Decidable p] {n} (hm : Keeps I m)
    (hn : Keeps I n) : Keeps I (if p then m else n) := by
  split
  · exact hm
  · exact hn

/-- A value and a state that are `G`, or an error and a state that are `E`. -/
def Ends (m : ExceptT ε (StateM σ) α) (s : σ) (G : α → σ → Prop) (E : ε → σ → Prop) : Prop :=
  match m.run s with
  | (.ok a, s) => G a s
  | (.error e, s) => E e s

variable {G : α → σ → Prop} {E : ε → σ → Prop}

lemma Ends.of_ok {t a} (run : m.run s = (.ok a, t)) (h : G a t) : Ends m s G E := by
  rw [Ends, run]
  exact h

lemma Ends.of_error {t e} (run : m.run s = (.error e, t)) (h : E e t) : Ends m s G E := by
  rw [Ends, run]
  exact h

lemma ends_pure {a} (h : G a s) : Ends (pure a : ExceptT ε (StateM σ) α) s G E := h

lemma ends_throw {e} (h : E e s) : Ends (throw e : ExceptT ε (StateM σ) α) s G E := h

lemma Ends.mono {G' E'} (hm : Ends m s G E)
    (hgood : ∀ a s, G a s → G' a s) (hbad : ∀ e s, E e s → E' e s) : Ends m s G' E' := by
  rw [Ends] at hm ⊢
  generalize m.run s = result at hm ⊢
  obtain ⟨e | a, s'⟩ := result
  · exact hbad e s' hm
  · exact hgood a s' hm

lemma Ends.final (hm : Ends m s (fun _ => I) fun _ => I) : I (m.run s).2 := by
  rw [Ends] at hm
  generalize m.run s = result at hm ⊢
  obtain ⟨_ | _, s'⟩ := result
  all_goals exact hm

lemma Ends.ite {p} [Decidable p] {n} (hm : p → Ends m s G E) (hn : ¬p → Ends n s G E) :
    Ends (if p then m else n) s G E := by
  split
  · exact hm ‹_›
  · exact hn ‹_›

lemma Ends.tryCatch {f E'} (hm : Ends m s G E)
    (hf : ∀ e s, E e s → Ends (f e) s G E') : Ends (tryCatch m f) s G E' := by
  rw [Ends, run_tryCatch]
  rw [Ends] at hm
  generalize m.run s = result at hm ⊢
  obtain ⟨e | _, s'⟩ := result
  · exact hf e s' hm
  · exact hm

lemma Ends.bind {M G} (hm : Ends m s M E)
    (hf : ∀ a s, M a s → Ends (f a) s G E) : Ends (m >>= f) s G E := by
  rw [Ends, run_bind]
  rw [Ends] at hm
  generalize m.run s = result at hm ⊢
  obtain ⟨_ | a, s'⟩ := result
  · exact hm
  · exact hf a s' hm

lemma Ends.bind_mono {M G E'} (hm : Ends m s M E') (hbad : ∀ e s, E' e s → E e s)
    (hf : ∀ a s, M a s → Ends (f a) s G E) : Ends (m >>= f) s G E :=
  (hm.mono (fun _ _ h => h) hbad).bind hf

end Program
