/-
Runs of a step function, for any machine whose operations are total functions on its state.

A run is a fold of `step` over a list of operations. Two predicates speak about all of it:
- `Always step P s ops`: P holds in every state reached, the first and the last one included;
- `Along step C s ops`: C holds at every step, of the operation and of the state it is applied to.
The rules below reduce a statement about whole runs to one step: an invariant (`run_inv`), a step condition that carries
a state property (`always_of_along`) or is exact for it (`always_iff_along`), what holds at the end (`always_iff_last`,
`last_iff_along`). `always_sim` and `along_sim` carry both predicates over to a machine that the steps project to.
`run_picked` removes operations without influence, `run_measure` counts the steps of one party. `tryRun` is the run of a
machine whose operations can fail.
-/
import Mathlib.Tactic

namespace LuluExt.Run

variable {σ ο : Type*} {step : σ → ο → σ}

/-- the state after a list of operations -/
def run (step : σ → ο → σ) (s : σ) (ops : List ο) : σ := ops.foldl step s

@[simp] theorem run_nil (s : σ) : run step s [] = s := rfl

@[simp] theorem run_cons (s : σ) (o : ο) (ops : List ο) : run step s (o :: ops) = run step (step s o) ops := rfl

theorem run_append (s : σ) (a b : List ο) : run step s (a ++ b) = run step (run step s a) b := by
  simp [run]

/-- `P` in every state reached -/
def Always (step : σ → ο → σ) (P : σ → Prop) : σ → List ο → Prop
  | s, [] => P s
  | s, o :: ops => P s ∧ Always step P (step s o) ops

/-- `C` at every step: of the state before it and of its operation -/
def Along (step : σ → ο → σ) (C : σ → ο → Prop) : σ → List ο → Prop
  | _, [] => True
  | s, o :: ops => C s o ∧ Along step C (step s o) ops

instance decidableAlong (C : σ → ο → Prop) [∀ s o, Decidable (C s o)] :
    ∀ (s : σ) (ops : List ο), Decidable (Along step C s ops)
  | _, [] => inferInstanceAs (Decidable True)
  | s, o :: ops =>
    have := decidableAlong C (step s o) ops
    inferInstanceAs (Decidable (C s o ∧ Along step C (step s o) ops))

variable {ops : List ο} {s : σ} {P : σ → Prop}

theorem Always.head (h : Always step P s ops) : P s := by
  cases ops with
  | nil => exact h
  | cons o ops => exact h.1

theorem Always.last (h : Always step P s ops) : P (run step s ops) := by
  induction ops generalizing s with
  | nil => exact h
  | cons o ops ih => exact ih h.2

theorem always_iff_along_next : Always step P s ops ↔ P s ∧ Along step (fun s o => P (step s o)) s ops := by
  induction ops generalizing s with
  | nil => simp [Always, Along]
  | cons o ops ih => simp only [Always, Along, ih]

variable {I : σ → Prop}

/-- a step that is taken only under a guard -/
theorem guard_inv {p : Prop} [Decidable p] {t : σ} (h : I s) (hstep : p → I t) : I (if p then t else s) := by
  split_ifs with hp
  · exact hstep hp
  · exact h

/-- **Invariant rule.** -/
theorem run_inv (hstep : ∀ s o, I s → I (step s o)) (h : I s) (ops : List ο) : I (run step s ops) := by
  induction ops generalizing s with
  | nil => exact h
  | cons o ops ih => exact ih (hstep s o h)

variable {C : σ → ο → Prop}

/-- **Conditional invariant rule.** A step condition that carries an invariant carries whatever the invariant gives. -/
theorem always_of_along (hP : ∀ s, I s → P s)
    (hstep : ∀ s o, I s → C s o → I (step s o)) (hs : I s) (hC : Along step C s ops) :
    Always step P s ops := by
  induction ops generalizing s with
  | nil => exact hP s hs
  | cons o ops ih => exact ⟨hP s hs, ih (hstep s o hs hC.1) hC.2⟩

variable {H : σ → ο → Prop}

/-- **Exact step condition.** In runs whose steps meet `H`: if a step that meets `C` keeps the invariant and a step
that breaks `C` leads to a state without `P`, then `P` holds in every state reached exactly when every step meets
`C`. -/
theorem always_iff_along (hP : ∀ s, I s → P s)
    (hgood : ∀ s o, I s → H s o → C s o → I (step s o)) (hbad : ∀ s o, I s → H s o → ¬ C s o → ¬ P (step s o))
    (hs : I s) (hH : Along step H s ops) : Always step P s ops ↔ Along step C s ops := by
  induction ops generalizing s with
  | nil => exact ⟨fun _ => trivial, fun _ => hP s hs⟩
  | cons o ops ih =>
    constructor
    · intro h
      obtain ⟨-, hal⟩ := h
      have hC : C s o := by
        by_contra hc
        exact hbad s o hs hH.1 hc hal.head
      exact ⟨hC, (ih (hgood s o hs hH.1 hC) hH.2).1 hal⟩
    · intro h
      obtain ⟨hC, hal⟩ := h
      exact ⟨hP s hs, (ih (hgood s o hs hH.1 hC) hH.2).2 hal⟩

theorem along_true (ops : List ο) : Along step (fun _ _ => True) s ops := by
  induction ops generalizing s with
  | nil => trivial
  | cons o ops ih => exact ⟨trivial, ih⟩

theorem always_iff_along_of_inv (hP : ∀ s, I s → P s)
    (hgood : ∀ s o, I s → C s o → I (step s o)) (hbad : ∀ s o, I s → ¬ C s o → ¬ P (step s o)) (hs : I s)
    (ops : List ο) : Always step P s ops ↔ Along step C s ops :=
  always_iff_along (H := fun _ _ => True) hP (fun s o h _ => hgood s o h) (fun s o h _ => hbad s o h) hs
    (along_true ops)

/-- the same for a step that keeps the property exactly when it meets the condition, beside an invariant of all steps -/
theorem always_iff_along_of_iff (hI : ∀ s o, I s → I (step s o))
    (hC : ∀ s o, I s → P s → (P (step s o) ↔ C s o)) (hs : I s) (hP : P s) (ops : List ο) :
    Always step P s ops ↔ Along step C s ops := by
  refine always_iff_along_of_inv (I := fun s => I s ∧ P s) (fun _ h => h.2) ?_ ?_ ⟨hs, hP⟩ ops
  · intro s o h hstep
    exact ⟨hI s o h.1, (hC s o h.1 h.2).2 hstep⟩
  · intro s o h hstep hkept
    exact hstep ((hC s o h.1 h.2).1 hkept)

theorem along_forall {P : ο → Prop} : Along step (fun _ o => P o) s ops ↔ ∀ o ∈ ops, P o := by
  induction ops generalizing s with
  | nil => simp [Along]
  | cons o ops ih => simp [Along, ih]

variable {D : σ → ο → Prop}

theorem along_and : Along step (fun s o => C s o ∧ D s o) s ops ↔ Along step C s ops ∧ Along step D s ops := by
  induction ops generalizing s with
  | nil => simp [Along]
  | cons o ops ih =>
    simp only [Along, ih]
    tauto

theorem along_congr (hI : ∀ s o, I s → H s o → I (step s o))
    (hCD : ∀ s o, I s → H s o → (C s o ↔ D s o)) (hs : I s) (hH : Along step H s ops) :
    Along step C s ops ↔ Along step D s ops := by
  induction ops generalizing s with
  | nil => exact Iff.rfl
  | cons o ops ih => simp only [Along, hCD s o hs hH.1, ih (hI s o hs hH.1) hH.2]

/-- a step condition that an invariant turns into another one -/
theorem along_of_along (hI : ∀ s o, I s → H s o → I (step s o))
    (hC : ∀ s o, I s → H s o → C s o) (hs : I s) (hH : Along step H s ops) :
    Along step C s ops := by
  induction ops generalizing s with
  | nil => trivial
  | cons o ops ih => exact ⟨hC s o hs hH.1, ih (hI s o hs hH.1) hH.2⟩

theorem along_append {a b : List ο} : Along step C s (a ++ b) ↔ Along step C s a ∧ Along step C (run step s a) b := by
  induction a generalizing s with
  | nil => simp [Along]
  | cons o a ih =>
    simp only [List.cons_append, Along, ih]
    tauto

/-- **A property that is lost for good** holds in every state reached exactly when it holds in the last one. -/
theorem always_iff_last (hI : ∀ s o, I s → H s o → I (step s o))
    (hlost : ∀ s o, I s → H s o → ¬ P s → ¬ P (step s o)) (hs : I s)
    (hH : Along step H s ops) : Always step P s ops ↔ P (run step s ops) := by
  induction ops generalizing s with
  | nil => exact Iff.rfl
  | cons o ops ih =>
    have hrest := ih (hI s o hs hH.1) hH.2
    constructor
    · intro h
      exact hrest.1 h.2
    · intro h
      have hall := hrest.2 h
      refine ⟨?_, hall⟩
      by_contra hp
      exact hlost s o hs hH.1 hp hall.head

/-- **Exact condition for the end.** A step that meets `C` keeps the invariant; one that breaks it leads to a state that
no later step makes good. -/
theorem last_iff_along {D : σ → Prop} (hgood : ∀ s o, I s → H s o → C s o → I (step s o))
    (hbad : ∀ s o, I s → H s o → ¬ C s o → D (step s o)) (hdoomed : ∀ s o, D s → H s o → D (step s o))
    (hs : I s) (hH : Along step H s ops) (hP : I (run step s ops) → P (run step s ops))
    (hD : D (run step s ops) → ¬ P (run step s ops)) : P (run step s ops) ↔ Along step C s ops := by
  have hlost : ∀ (ops : List ο) (s : σ), D s → Along step H s ops → D (run step s ops) := by
    intro ops
    induction ops with
    | nil => exact fun _ h _ => h
    | cons o ops ih => exact fun s h hH => ih _ (hdoomed s o h hH.1) hH.2
  induction ops generalizing s with
  | nil => exact ⟨fun _ => trivial, fun _ => hP hs⟩
  | cons o ops ih =>
    by_cases hC : C s o
    · simp only [Along, hC, true_and]
      exact ih (hgood s o hs hH.1 hC) hH.2 hP hD
    · exact ⟨fun h => absurd h (hD (hlost ops _ (hbad s o hs hH.1 hC) hH.2)), fun h => absurd h.1 hC⟩

/-- **Two step conditions** agree on whole runs when they agree on each step that follows steps which met them. -/
theorem along_iff_along (hI : ∀ s o, I s → C s o → I (step s o))
    (hCD : ∀ s o, I s → (D s o ↔ C s o)) (hs : I s) (ops : List ο) :
    Along step D s ops ↔ Along step C s ops := by
  induction ops generalizing s with
  | nil => exact Iff.rfl
  | cons o ops ih =>
    simp only [Along, hCD s o hs]
    exact and_congr_right fun hC => ih (hI s o hs hC)

/-! ## Projection to another machine -/

section Sim

variable {τ : Type*} {step' : τ → ο → τ} {f : σ → τ} {I : σ → Prop}

theorem always_sim {P' : τ → Prop} (hI : ∀ s o, I s → I (step s o))
    (hf : ∀ s o, I s → f (step s o) = step' (f s) o) (hP : ∀ s, I s → (P s ↔ P' (f s))) (hs : I s)
    : Always step P s ops ↔ Always step' P' (f s) ops := by
  induction ops generalizing s with
  | nil => exact hP s hs
  | cons o ops ih => simp only [Always, hP s hs, ih (hI s o hs), hf s o hs]

theorem along_sim {C' : τ → ο → Prop} (hI : ∀ s o, I s → I (step s o))
    (hf : ∀ s o, I s → f (step s o) = step' (f s) o) (hC : ∀ s o, I s → (C s o ↔ C' (f s) o)) (hs : I s)
    : Along step C s ops ↔ Along step' C' (f s) ops := by
  induction ops generalizing s with
  | nil => exact Iff.rfl
  | cons o ops ih => simp only [Along, hC s o hs, ih (hI s o hs), hf s o hs]

end Sim

/-- the operations of a run that meet `p` in the state they are applied to -/
def picked (step : σ → ο → σ) (p : σ → ο → Bool) : σ → List ο → List ο
  | _, [] => []
  | s, o :: ops => if p s o then o :: picked step p (step s o) ops else picked step p (step s o) ops

/-- **Operations without influence.** A run stays related to the run of the operations picked from it, when these keep
the relation and the others do not leave it. -/
theorem run_picked {p : σ → ο → Bool} {R : σ → σ → Prop} (hI : ∀ s o, I s → H s o → I (step s o))
    (hother : ∀ s s' o, I s → H s o → p s o = false → R s s' → R (step s o) s')
    (hown : ∀ s s' o, I s → H s o → p s o → R s s' → R (step s o) (step s' o)) (hs : I s) {s' : σ} (h : R s s')
    (hH : Along step H s ops) : R (run step s ops) (run step s' (picked step p s ops)) := by
  induction ops generalizing s s' with
  | nil => exact h
  | cons o ops ih =>
    rw [picked]
    split_ifs with hp
    · exact ih (hI s o hs hH.1) (hown s s' o hs hH.1 hp h) hH.2
    · exact ih (hI s o hs hH.1) (hother s s' o hs hH.1 (by simpa using hp) h) hH.2

/-- **Progress.** Where an operation that meets `p` makes a measure smaller, and no operation makes it larger, a run
with enough of them brings it down to zero. -/
theorem run_measure {p : ο → Bool} {μ : σ → ℕ} (hI : ∀ s o, I s → I (step s o))
    (hμ : ∀ s o, I s → μ (step s o) ≤ μ s - (p o).toNat) (hs : I s) (ops : List ο) :
    μ (run step s ops) ≤ μ s - ops.countP p := by
  induction ops generalizing s with
  | nil => exact le_rfl
  | cons o ops ih =>
    have hfirst := hμ s o hs
    have hrest := ih (hI s o hs)
    rw [List.countP_cons, run_cons]
    cases hp : p o with
    | true => simp only [hp, Bool.toNat_true, if_true] at hfirst ⊢; omega
    | false => simp only [Bool.false_eq_true, if_false] at hfirst ⊢; omega

/-! ## Components -/

section Component

variable {ι α : Type*} [DecidableEq ι] {g : σ → ι → α} {m : σ → ι → Prop} {R : α → Prop → α → Prop → Prop} {t : σ}
  {i : ι} {x : α}

/-- **One component.** A step that sets one of the components of a state moves each of them, and whether it is a
member. -/
theorem moves_set (hstays : ∀ a q, R a q a q) (hget : g t = Function.update (g s) i x)
    (hmem : ∀ j ≠ i, m t j ↔ m s j) (h : R (g s i) (m s i) x (m t i)) (j : ι) :
    R (g s j) (m s j) (g t j) (m t j) := by
  by_cases hj : j = i
  · subst hj
    rwa [hget, Function.update_self]
  · rw [hget, Function.update_of_ne hj, propext (hmem j hj)]
    exact hstays _ _

theorem moves_ite {p : Prop} [Decidable p] (hstays : ∀ a q, R a q a q) (hget : g t = Function.update (g s) i x)
    (hmem : ∀ j ≠ i, m t j ↔ m s j) (h : p → R (g s i) (m s i) x (m t i)) (j : ι) :
    R (g s j) (m s j) (g (if p then t else s) j) (m (if p then t else s) j) := by
  split_ifs with hp
  · exact moves_set hstays hget hmem (h hp) j
  · exact hstays _ _

end Component

/-! ## Operations that can fail -/

section Fail

variable {call : σ → ο → Option σ}

/-- the state after a list of operations, none once one has failed -/
def tryRun (call : σ → ο → Option σ) (s : σ) (ops : List ο) : Option σ := ops.foldlM call s

theorem tryRun_cons (s : σ) (o : ο) (ops : List ο) :
    tryRun call s (o :: ops) = (call s o).bind fun s' => tryRun call s' ops := by
  simp only [tryRun, List.foldlM_cons, Option.bind_eq_bind]

/-- when the operation alone decides whether it fails, a run fails exactly when it holds one that does -/
theorem tryRun_eq_none_iff {F : ο → Prop} (hfail : ∀ s o, I s → F o → call s o = none)
    (hgood : ∀ s o, I s → ¬ F o → ∃ s', call s o = some s' ∧ I s') (hs : I s) (ops : List ο) :
    tryRun call s ops = none ↔ ∃ o ∈ ops, F o := by
  induction ops generalizing s with
  | nil => simp [tryRun]
  | cons o ops ih =>
    rw [tryRun_cons]
    by_cases ho : F o
    · rw [hfail s o hs ho]
      exact iff_of_true rfl ⟨o, List.mem_cons_self, ho⟩
    · obtain ⟨s', he, hs'⟩ := hgood s o hs ho
      rw [he, Option.bind_some, ih hs']
      simp [ho]

end Fail

end LuluExt.Run
