/-
Spending from an account that refills at a fixed rate up to a cap.

An account has a level, the instant it was last brought up to date, and the instants at which one unit each was spent.
`Spends` is the one thing a step may do: move to a later instant, gain at most rate times the time that passed, never
hold more than the cap, and pay one unit for each new entry. `Inv.spends` carries the bounds through a step; the last
field of `Inv` is the result: within any interval at most cap + rate * length units were spent.
-/
import Mathlib.Tactic

namespace LuluExt.Budget

structure Account (K : Type*) where
  level : K
  last : ℕ
  spent : List ℕ

namespace Account

variable {t1 : ℕ}

section Count

variable {K : Type*}

/-- units spent at `t1` or later -/
def spentSince (a : Account K) (t1 : ℕ) : ℕ := a.spent.countP (fun t => decide (t1 ≤ t))

/-- units spent in the interval, ends included -/
def spentWithin (a : Account K) (t1 t2 : ℕ) : ℕ := a.spent.countP (fun t => decide (t1 ≤ t ∧ t ≤ t2))

theorem spentWithin_le_since (a : Account K) (t1 t2 : ℕ) : a.spentWithin t1 t2 ≤ a.spentSince t1 := by
  apply List.countP_mono_left
  intro t _ ht
  simp only [decide_eq_true_eq] at ht ⊢
  exact ht.1

theorem since_zero {a : Account K} (hle : ∀ t ∈ a.spent, t ≤ a.last) (ht : a.last < t1) : a.spentSince t1 = 0 := by
  simp only [spentSince, List.countP_eq_zero, decide_eq_true_eq, not_le]
  intro t hm
  exact (hle t hm).trans_lt ht

end Count

variable {K : Type*} [Field K] [LinearOrder K]

/-- `k` units are paid at the instant `b.last` -/
structure Spends (cap rate : K) (k : ℕ) (a b : Account K) : Prop where
  last_le : a.last ≤ b.last
  spent_eq : b.spent = a.spent ++ List.replicate k b.last
  nonneg : 0 ≤ b.level
  le_cap : k + b.level ≤ cap
  le_refill : k + b.level ≤ a.level + rate * (b.last - a.last)

structure Inv (cap rate : K) (a : Account K) : Prop where
  nonneg : 0 ≤ a.level
  le_cap : a.level ≤ cap
  spent_le : ∀ t ∈ a.spent, t ≤ a.last
  since_le : ∀ t1 ≤ a.last, a.spentSince t1 + a.level ≤ cap + rate * (a.last - t1)
  within_le : ∀ t1 t2, t1 ≤ t2 → (a.spentWithin t1 t2 : K) ≤ cap + rate * (t2 - t1)

variable {cap rate : K} {k : ℕ} {a b : Account K}

theorem Spends.spent_le (h : Spends cap rate k a b) (hi : Inv cap rate a) : ∀ t ∈ b.spent, t ≤ b.last := by
  intro t ht
  rw [h.spent_eq, List.mem_append] at ht
  rcases ht with ht | ht
  · exact (hi.spent_le t ht).trans h.last_le
  · exact (List.eq_of_mem_replicate ht).le

theorem Spends.since_eq (h : Spends cap rate k a b) (ht : t1 ≤ b.last) : b.spentSince t1 = a.spentSince t1 + k := by
  simp [spentSince, h.spent_eq, List.countP_replicate, ht]

theorem Spends.within_eq (h : Spends cap rate k a b) {t2 : ℕ} (ht : t2 < b.last) :
    b.spentWithin t1 t2 = a.spentWithin t1 t2 := by
  simp [spentWithin, h.spent_eq, ht]

variable [IsStrictOrderedRing K]

theorem refill_nonneg (hr : 0 ≤ rate) {t2 : ℕ} (ht : t1 ≤ t2) : 0 ≤ rate * ((t2 : K) - t1) :=
  mul_nonneg hr (sub_nonneg.2 (Nat.cast_le.2 ht))

theorem Inv.start (hr : 0 ≤ rate) (h0 : 0 ≤ a.level) (hc : a.level ≤ cap) (hs : a.spent = []) : Inv cap rate a := by
  refine ⟨h0, hc, ?_, ?_, ?_⟩
  · intro t ht
    simp [hs] at ht
  · intro t1 ht
    simp only [spentSince, hs, List.countP_nil, Nat.cast_zero]
    linarith [refill_nonneg hr ht]
  · intro t1 t2 ht
    simp only [spentWithin, hs, List.countP_nil, Nat.cast_zero]
    linarith [refill_nonneg hr ht]

theorem Spends.since_le (hr : 0 ≤ rate) (h : Spends cap rate k a b) (hi : Inv cap rate a)
    (ht : t1 ≤ b.last) : b.spentSince t1 + b.level ≤ cap + rate * (b.last - t1) := by
  rw [h.since_eq ht, Nat.cast_add]
  by_cases h1 : t1 ≤ a.last
  · have hsince := hi.since_le t1 h1
    have hrefill := h.le_refill
    calc (a.spentSince t1 + k + b.level : K) ≤ a.spentSince t1 + a.level + rate * (b.last - a.last) := by linarith
      _ ≤ cap + rate * (a.last - t1) + rate * (b.last - a.last) := by linarith
      _ = cap + rate * (b.last - t1) := by ring
  · -- nothing was spent since `t1` before this step, and the step pays from one level of at most the cap
    rw [since_zero hi.spent_le (not_le.1 h1), Nat.cast_zero]
    linarith [h.le_cap, refill_nonneg hr ht]

/-- **One step keeps the bounds.** -/
theorem Inv.spends (hr : 0 ≤ rate) (hi : Inv cap rate a) (h : Spends cap rate k a b) : Inv cap rate b := by
  refine ⟨h.nonneg, ?_, h.spent_le hi, fun t1 => h.since_le hr hi, ?_⟩
  · linarith [h.le_cap]
  · intro t1 t2 ht
    by_cases h2 : t2 < b.last
    · rw [h.within_eq h2]
      exact hi.within_le t1 t2 ht
    by_cases h1 : t1 ≤ b.last
    · have hsince := h.since_le hr hi h1
      have hwithin : (b.spentWithin t1 t2 : K) ≤ b.spentSince t1 := Nat.cast_le.2 (b.spentWithin_le_since t1 t2)
      have hend : rate * ((b.last : K) - t1) ≤ rate * (t2 - t1) := by
        gcongr
        exact not_lt.1 h2
      linarith [h.nonneg]
    · have hzero : b.spentWithin t1 t2 = 0 :=
        Nat.eq_zero_of_le_zero ((b.spentWithin_le_since t1 t2).trans
          (since_zero (h.spent_le hi) (not_le.1 h1)).le)
      rw [hzero, Nat.cast_zero]
      linarith [h.le_cap, h.nonneg, refill_nonneg hr ht, (Nat.cast_nonneg k : (0 : K) ≤ k)]

end Account

end LuluExt.Budget
