import Mathlib.Data.List.Basic

/-!
Runs of a partial step function: a list of events is performed in order and
the run stops as soon as one of them cannot be performed.
-/

set_option autoImplicit false

namespace Transition

variable {σ ε : Type*}

/-- Perform the events in order; `none` as soon as one of them cannot happen. -/
def run (step : σ → ε → Option σ) : σ → List ε → Option σ
  | s, [] => some s
  | s, e :: es => (step s e).bind fun t => run step t es

@[simp] theorem run_nil (step : σ → ε → Option σ) (s : σ) : run step s [] = some s := rfl

theorem run_cons (step : σ → ε → Option σ) (s : σ) (e : ε) (es : List ε) :
    run step s (e :: es) = (step s e).bind fun t => run step t es := rfl

theorem run_cons_some {step : σ → ε → Option σ} {s u : σ} {e : ε} {es : List ε} :
    run step s (e :: es) = some u ↔ ∃ t, step s e = some t ∧ run step t es = some u := by
  simp [run_cons, Option.bind_eq_some_iff]

theorem run_append (step : σ → ε → Option σ) (s : σ) (es fs : List ε) :
    run step s (es ++ fs) = (run step s es).bind fun t => run step t fs := by
  induction es generalizing s with
  | nil => rfl
  | cons e es ih =>
    simp only [List.cons_append, run_cons, Option.bind_assoc]
    congr 1
    funext t
    exact ih t

theorem run_append_some {step : σ → ε → Option σ} {s u : σ} {es fs : List ε} :
    run step s (es ++ fs) = some u ↔
      ∃ t, run step s es = some t ∧ run step t fs = some u := by
  simp [run_append, Option.bind_eq_some_iff]

/-- What every step preserves holds at the end of every run. -/
theorem run_invariant {step : σ → ε → Option σ} (I : σ → Prop)
    (hstep : ∀ s e t, I s → step s e = some t → I t)
    {s t : σ} {es : List ε} (h : run step s es = some t) (hs : I s) : I t := by
  induction es generalizing s with
  | nil => cases h; exact hs
  | cons e es ih =>
    obtain ⟨m, hm, ht⟩ := run_cons_some.mp h
    exact ih ht (hstep s e m hs hm)

/-- Every event of the run meets the condition `C` in the state it happens in. -/
def Along (C : σ → ε → Prop) (step : σ → ε → Option σ) : σ → List ε → Prop
  | _, [] => True
  | s, e :: es => C s e ∧ ∀ t, step s e = some t → Along C step t es

theorem along_of_mem {C : σ → ε → Prop} {step : σ → ε → Option σ} {es : List ε}
    (h : ∀ e ∈ es, ∀ s, C s e) (s : σ) : Along C step s es := by
  induction es generalizing s with
  | nil => trivial
  | cons e es ih =>
    have hrest : ∀ f ∈ es, ∀ t, C t f := fun f hf => h f (List.mem_cons_of_mem e hf)
    exact ⟨h e List.mem_cons_self s, fun t _ => ih hrest t⟩

theorem along_concat {C : σ → ε → Prop} {step : σ → ε → Option σ} {s : σ} {es : List ε} {e : ε}
    (h : Along C step s es) (he : ∀ t, run step s es = some t → C t e) :
    Along C step s (es ++ [e]) := by
  induction es generalizing s with
  | nil => exact ⟨he s rfl, fun _ _ => trivial⟩
  | cons a es ih =>
    refine ⟨h.1, fun t ht => ih (h.2 t ht) fun u hu => he u ?_⟩
    exact run_cons_some.mpr ⟨t, ht, hu⟩

theorem along_prefix {C : σ → ε → Prop} {step : σ → ε → Option σ} {s : σ} {pre es : List ε}
    (h : Along C step s es) (hp : pre <+: es) : Along C step s pre := by
  induction pre generalizing s es with
  | nil => trivial
  | cons e pre ih =>
    obtain ⟨suf, rfl⟩ := hp
    exact ⟨h.1, fun t ht => ih (h.2 t ht) ⟨suf, rfl⟩⟩

/-- A condition on every step of a run that a test decides. -/
def checks (c : σ → ε → Bool) (step : σ → ε → Option σ) : σ → List ε → Bool
  | _, [] => true
  | s, e :: es => c s e && (step s e).all fun t => checks c step t es

theorem along_of_checks {C : σ → ε → Prop} {c : σ → ε → Bool} {step : σ → ε → Option σ}
    (hc : ∀ s e, c s e = true → C s e) {s : σ} {es : List ε} (h : checks c step s es = true) :
    Along C step s es := by
  induction es generalizing s with
  | nil => trivial
  | cons e es ih =>
    obtain ⟨hfirst, hrest⟩ := (Bool.and_eq_true_iff ..).mp h
    refine ⟨hc s e hfirst, fun t ht => ih ?_⟩
    rw [ht] at hrest
    exact hrest

/-- The induction rule for runs whose steps all meet a condition. -/
theorem run_invariant_along {step : σ → ε → Option σ} {C : σ → ε → Prop} (I : σ → Prop)
    (hstep : ∀ s e t, I s → C s e → step s e = some t → I t)
    {s t : σ} {es : List ε} (h : run step s es = some t)
    (hc : Along C step s es) (hs : I s) : I t := by
  induction es generalizing s with
  | nil => cases h; exact hs
  | cons e es ih =>
    obtain ⟨m, hm, ht⟩ := run_cons_some.mp h
    exact ih ht (hc.2 m hm) (hstep s e m hs hc.1 hm)

end Transition
