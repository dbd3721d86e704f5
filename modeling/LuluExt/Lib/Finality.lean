/-
A background loop that is told to stop, for any machine.

The loop makes resources of its own, numbered as they are made (connections, consumers, subscriptions), records them
where a call that stops it finds them, and passes on what arrives from them. A call that stops the loop is final when,
in every run after it, nothing arrives from a resource that the loop recorded afterwards, none of these is open when the
loop has returned, and the loop returns after a bounded number of its own steps, whatever the others do.

`final_of_inv` is the rule: an invariant of all steps that is sound, and a measure of what is left to do that the loop's
steps make smaller and no other step makes larger. One run in which something arrives refutes it (`not_final`).
-/
import LuluExt.Lib.Run

namespace LuluExt.Finality

open Run

/-- what is seen of a loop: the resources that something arrived from, those that it recorded, which are open, and
whether it has returned -/
structure View where
  handled : List ℕ
  recorded : List ℕ
  isOpen : ℕ → Bool
  returned : Bool

/-- nothing arrives from a resource that was recorded, and none is left open -/
structure View.Sound (v : View) : Prop where
  undelivered : ∀ c ∈ v.handled, c ∉ v.recorded
  closed : v.returned = true → ∀ c ∈ v.recorded, v.isOpen c = false

section Final

variable {σ ο : Type} {step : σ → ο → σ} {own : ο → Bool} {view : σ → View}

/-- from here on, in every run: sound, and the loop has returned after a number of its own steps -/
def Final (step : σ → ο → σ) (own : ο → Bool) (view : σ → View) (s : σ) : Prop :=
  ∃ n, ∀ ops, (view (run step s ops)).Sound ∧ (n ≤ ops.countP own → (view (run step s ops)).returned = true)

theorem final_of_inv {I : σ → Prop} {μ : σ → ℕ} (hI : ∀ s o, I s → I (step s o))
    (hμ : ∀ s o, I s → μ (step s o) ≤ μ s - (own o).toNat) (hsound : ∀ s, I s → (view s).Sound)
    (hzero : ∀ s, I s → μ s = 0 → (view s).returned) {s : σ} (hs : I s) : Final step own view s := by
  refine ⟨μ s, fun ops => ?_⟩
  have hinv := run_inv hI hs ops
  refine ⟨hsound _ hinv, fun hn => hzero _ hinv ?_⟩
  have hle := run_measure hI hμ hs ops
  omega

variable {s : σ}

theorem Final.run (h : Final step own view s) (pre : List ο) : Final step own view (run step s pre) := by
  obtain ⟨n, hfinal⟩ := h
  refine ⟨n, fun ops => ?_⟩
  have hlater := hfinal (pre ++ ops)
  rw [run_append, List.countP_append] at hlater
  exact ⟨hlater.1, fun hn => hlater.2 (Nat.le_add_left_of_le hn)⟩

theorem not_final (ops : List ο) {c : ℕ} (hhandled : c ∈ (view (run step s ops)).handled)
    (hrecorded : c ∈ (view (run step s ops)).recorded) : ¬ Final step own view s := by
  rintro ⟨n, hfinal⟩
  exact (hfinal ops).1.undelivered c hhandled hrecorded

end Final

end LuluExt.Finality
