import Mathlib.Tactic.Common

/-!
# Runs of a partial step function

A machine is a step function that refuses some actions. `run` folds it over a list of actions;
`Along` says that a condition holds at every step of a run. The induction rules turn what one step
keeps into what every run keeps. -/

namespace Machine

variable {σ α : Type*} (step : σ → α → Option σ)

def run (s : σ) : List α → Option σ
  | [] => some s
  | a :: as => (step s a).bind fun s => run s as

/-- The first state if an action is refused. -/
def final (s : σ) (as : List α) : σ := (run step s as).getD s

def Along (P : σ → α → Prop) (s : σ) : List α → Prop
  | [] => True
  | a :: as => P s a ∧ ∀ s', step s a = some s' → Along P s' as

variable {step}
variable {s s' : σ} {as : List α}

lemma run_cons {a} (h : run step s (a :: as) = some s') :
    ∃ t, step s a = some t ∧ run step t as = some s' :=
  Option.bind_eq_some_iff.1 h

lemma run_final (h : (run step s as).isSome = true) : run step s as = some (final step s as) := by
  obtain ⟨t, ht⟩ := Option.isSome_iff_exists.1 h
  rw [final, ht, Option.getD_some]

variable {P : σ → α → Prop}

lemma Along.cons {t a} (h : step s a = some t) (p : P s a) (rest : Along step P t as) :
    Along step P s (a :: as) := by
  refine ⟨p, fun s' h' => ?_⟩
  obtain rfl := Option.some.inj (h.symm.trans h')
  exact rest

lemma Along.append {t bs} (h : run step s as = some t) (first : Along step P s as)
    (rest : Along step P t bs) : Along step P s (as ++ bs) := by
  induction as generalizing s with
  | nil =>
    cases h
    exact rest
  | cons a as ih =>
    obtain ⟨u, hu, hr⟩ := run_cons h
    exact .cons hu first.1 (ih hr (first.2 u hu))

lemma Along.of_all (h : ∀ a ∈ as, ∀ s, P s a) (s : σ) : Along step P s as := by
  induction as generalizing s with
  | nil => trivial
  | cons a as ih =>
    exact ⟨h a List.mem_cons_self s, fun t _ => ih (fun b hb => h b (List.mem_cons_of_mem _ hb)) t⟩

/-- What one step keeps under a condition, a run keeps whose steps all meet the condition. -/
lemma run_inv_along {I : σ → Prop} (keep : ∀ s a s', I s → P s a → step s a = some s' → I s')
    (h0 : I s) (along : Along step P s as) (h : run step s as = some s') : I s' := by
  induction as generalizing s with
  | nil =>
    cases h
    exact h0
  | cons a as ih =>
    obtain ⟨t, ht, hr⟩ := run_cons h
    exact ih (keep s a t h0 along.1 ht) (along.2 t ht) hr

/-- What one step keeps, every run keeps. -/
lemma run_inv {I : σ → Prop} (keep : ∀ s a s', I s → step s a = some s' → I s') (h0 : I s)
    (h : run step s as = some s') : I s' :=
  run_inv_along (P := fun _ _ => True) (fun s a s' inv _ => keep s a s' inv) h0
    (.of_all (fun _ _ _ => trivial) s) h

end Machine
