import Mathlib

/-!
# Runs of a step function, and what a run preserves

A component that takes one event after another is a function
`step : σ → ε → σ`.  Everything nondeterministic about its surroundings
(which message arrives, which send fails) is in the event, so a run is the
left fold of `step` over a list of events and a reachable state is the
state after some list.

A few rules are all this development needs:

* `run_invariant` — what holds at the start and is kept by each step holds
  after every run;
* `run_invariant_of_stepsMeet` — the same for a run whose steps all meet a
  condition `C`.  A condition on the state before the step and on the event
  is how "the run avoids this branch" is said; `always_iff_stepsMeet` is for
  conditions that cannot be weakened;
* `run_simulation` — a ghost value that each step may extend is extended by
  the whole run.
-/

namespace Runs

variable {σ ε γ : Type*}

/-- The state after the events `es`, taken in order from `s`. -/
def run (step : σ → ε → σ) (s : σ) (es : List ε) : σ :=
  es.foldl step s

/-- Every step of the run of `es` from `s` meets `C`, a condition on the
state before the step and the event it takes. -/
def StepsMeet (step : σ → ε → σ) (C : σ → ε → Prop) : σ → List ε → Prop
  | _, [] => True
  | s, e :: es => C s e ∧ StepsMeet step C (step s e) es

/-- A decidable condition can be checked along a concrete run. -/
instance decidableStepsMeet (step : σ → ε → σ) (C : σ → ε → Prop)
    [∀ s e, Decidable (C s e)] :
    ∀ (s : σ) (es : List ε), Decidable (StepsMeet step C s es)
  | _, [] => .isTrue trivial
  | s, e :: es =>
      @instDecidableAnd _ _ _ (decidableStepsMeet step C (step s e) es)

variable {step : σ → ε → σ} {C : σ → ε → Prop} {s : σ}

@[simp] theorem run_nil : run step s [] = s := rfl

@[simp] theorem run_cons {e : ε} {es : List ε} :
    run step s (e :: es) = run step (step s e) es := rfl

/-- A run of two lists is the run of the second from where the first ends. -/
theorem run_append {es fs : List ε} :
    run step s (es ++ fs) = run step (run step s es) fs :=
  List.foldl_append

@[simp] theorem stepsMeet_nil : StepsMeet step C s [] := trivial

@[simp] theorem stepsMeet_cons {e : ε} {es : List ε} :
    StepsMeet step C s (e :: es) ↔ C s e ∧ StepsMeet step C (step s e) es :=
  Iff.rfl

/-- The steps of an appended run are those of its two parts. -/
theorem stepsMeet_append {es fs : List ε} :
    StepsMeet step C s (es ++ fs) ↔
      StepsMeet step C s es ∧ StepsMeet step C (run step s es) fs := by
  induction es generalizing s with
  | nil => simp
  | cons e es ih => simp [ih, and_assoc]

/-- A condition on the events alone is met by a run of such events. -/
theorem stepsMeet_of_forall {D : ε → Prop} {es : List ε}
    (h : ∀ e ∈ es, D e) : StepsMeet step (fun _ e => D e) s es := by
  induction es generalizing s with
  | nil => trivial
  | cons e es ih =>
      exact ⟨h e List.mem_cons_self,
        ih fun e' he' => h e' (List.mem_cons_of_mem e he')⟩

/-- A run that meets a condition meets every weaker one. -/
theorem StepsMeet.mono {D : σ → ε → Prop} {es : List ε}
    (h : StepsMeet step C s es) (hle : ∀ s e, C s e → D s e) :
    StepsMeet step D s es := by
  induction es generalizing s with
  | nil => trivial
  | cons e es ih => exact ⟨hle s e h.1, ih h.2⟩

/-- A run that meets two conditions meets both at each step. -/
theorem StepsMeet.and {D : σ → ε → Prop} {es : List ε}
    (h : StepsMeet step C s es) (h' : StepsMeet step D s es) :
    StepsMeet step (fun s e => C s e ∧ D s e) s es := by
  induction es generalizing s with
  | nil => trivial
  | cons e es ih => exact ⟨⟨h.1, h'.1⟩, ih h.2 h'.2⟩

/-- A run of steps that are runs themselves. -/
theorem stepsMeet_of_flatMap {τ α : Type*} (big : τ → α → τ) {proj : τ → σ}
    {events : α → List ε} {r : τ} {as : List α}
    (hbig : ∀ r a, proj (big r a) = run step (proj r) (events a))
    (h : StepsMeet step C (proj r) (as.flatMap events)) :
    StepsMeet big (fun r a => StepsMeet step C (proj r) (events a)) r as := by
  induction as generalizing r with
  | nil => trivial
  | cons a as ih =>
      rw [List.flatMap_cons, stepsMeet_append, ← hbig] at h
      exact ⟨h.1, ih h.2⟩

/-- **Conditional invariant rule.**  What holds at the start and is kept by
every step that meets `C` holds after every run whose steps meet `C`. -/
theorem run_invariant_of_stepsMeet {I : σ → Prop} {es : List ε}
    (hs : I s) (hC : StepsMeet step C s es)
    (hstep : ∀ s e, I s → C s e → I (step s e)) :
    I (run step s es) := by
  induction es generalizing s with
  | nil => exact hs
  | cons e es ih => exact ih (hstep s e hs hC.1) hC.2

/-- **Invariant rule.** -/
theorem run_invariant {I : σ → Prop} {es : List ε} (hs : I s)
    (hstep : ∀ s e, I s → I (step s e)) : I (run step s es) := by
  induction es generalizing s with
  | nil => exact hs
  | cons e es ih => exact ih (hstep s e hs)

/-- **Exact condition rule.**  Where steps that meet `C` keep `I`, and no
other step from `I` comes to a state with the property `P`, the runs that
never leave `P` are those whose steps all meet `C`. -/
theorem always_iff_stepsMeet_of {I P : σ → Prop} {es : List ε} (hs : I s)
    (hP : ∀ s, I s → P s) (hkeeps : ∀ s e, I s → C s e → I (step s e))
    (hneeds : ∀ s e, I s → P (step s e) → C s e) :
    (∀ past, past <+: es → P (run step s past)) ↔ StepsMeet step C s es := by
  induction es generalizing s with
  | nil => simp [hP s hs]
  | cons e es ih =>
      rw [stepsMeet_cons]
      constructor
      · intro h
        have hC : C s e := hneeds s e hs (h [e] ⟨es, rfl⟩)
        refine ⟨hC, (ih (hkeeps s e hs hC)).mp fun past hpast => ?_⟩
        exact h (e :: past) (List.cons_prefix_cons.mpr ⟨rfl, hpast⟩)
      · intro ⟨hC, hrest⟩ past hpast
        cases past with
        | nil => exact hP s hs
        | cons e' past =>
            obtain ⟨rfl, hpast'⟩ := List.cons_prefix_cons.mp hpast
            exact (ih (hkeeps s e' hs hC)).mpr hrest past hpast'

/-- The same where a step keeps `I` exactly when it meets `C`. -/
theorem always_iff_stepsMeet {I : σ → Prop} {es : List ε} (hs : I s)
    (hstep : ∀ s e, I s → (I (step s e) ↔ C s e)) :
    (∀ past, past <+: es → I (run step s past)) ↔ StepsMeet step C s es :=
  always_iff_stepsMeet_of hs (fun _ h => h)
    (fun s e h hC => (hstep s e h).mpr hC)
    fun s e h hnext => (hstep s e h).mp hnext

/-- **Simulation rule.**  `R s g` relates a state to a ghost value; a step
that meets `C` may move the ghost along a preorder `le`.  Then so does every
run whose steps meet `C`. -/
theorem run_simulation {R : σ → γ → Prop} {le : γ → γ → Prop} {g : γ}
    {es : List ε} (hs : R s g) (hC : StepsMeet step C s es)
    (hrefl : ∀ g, le g g) (htrans : ∀ a b c, le a b → le b c → le a c)
    (hstep : ∀ s e g, R s g → C s e → ∃ g', le g g' ∧ R (step s e) g') :
    ∃ g', le g g' ∧ R (run step s es) g' := by
  induction es generalizing s g with
  | nil => exact ⟨g, hrefl g, hs⟩
  | cons e es ih =>
      obtain ⟨g₁, hle₁, hR₁⟩ := hstep s e g hs hC.1
      obtain ⟨g₂, hle₂, hR₂⟩ := ih hR₁ hC.2
      exact ⟨g₂, htrans g g₁ g₂ hle₁ hle₂, hR₂⟩

/-- **No value is skipped.**  A count that grows by one at most with each
step takes every value between where it starts and where it ends. -/
theorem exists_prefix_run_eq {I : σ → Prop} {f : σ → ℕ} {n : ℕ}
    {es : List ε} (hs : I s) (hC : StepsMeet step C s es)
    (hstep : ∀ s e, I s → C s e → I (step s e) ∧ f (step s e) ≤ f s + 1)
    (hfrom : f s ≤ n) (hto : n ≤ f (run step s es)) :
    ∃ past, past <+: es ∧ f (run step s past) = n := by
  induction es generalizing s with
  | nil => exact ⟨[], List.nil_prefix, Nat.le_antisymm hfrom hto⟩
  | cons e es ih =>
      by_cases hhere : f s = n
      · exact ⟨[], List.nil_prefix, hhere⟩
      · obtain ⟨hI, hle⟩ := hstep s e hs hC.1
        have hnext : f (step s e) ≤ n := by omega
        obtain ⟨past, hpast, hrun⟩ := ih hI hC.2 hnext hto
        exact ⟨e :: past, List.cons_prefix_cons.mpr ⟨rfl, hpast⟩, hrun⟩

end Runs
