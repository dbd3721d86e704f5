/-
Exponential smoothing in integer arithmetic: the next value is ((k - 1) * x + m) / k, rounded down.

Rounding keeps the average away from a target above it. Fed with the same sample m again and again, the average
starting at x ≤ m grows until it is less than k below m and then stands still: `reaches_limit`, with
limit = max x (m - (k - 1)).
-/
import Mathlib.Tactic

namespace LuluExt.Smoothing

/-- one sample `m` into the average `x`, with weight 1 / k -/
def next (k x m : ℤ) : ℤ := ((k - 1) * x + m) / k

/-- where the average ends up when every sample is `m` -/
def limit (k x m : ℤ) : ℤ := max x (m - (k - 1))

variable {k x m : ℤ}

theorem next_eq (hk : 0 < k) (x m : ℤ) : next k x m = x + (m - x) / k := by
  unfold next
  calc ((k - 1) * x + m) / k = (m - x + k * x) / k := by ring_nf
    _ = (m - x) / k + x := Int.add_mul_ediv_left _ _ hk.ne'
    _ = x + (m - x) / k := add_comm _ _

theorem le_next (hk : 0 < k) {lo : ℤ} (hx : lo ≤ x) (hm : lo ≤ m) : lo ≤ next k x m := by
  unfold next
  rw [Int.le_ediv_iff_mul_le hk]
  nlinarith

theorem next_le (hk : 0 < k) {hi : ℤ} (hx : x ≤ hi) (hm : m ≤ hi) : next k x m ≤ hi := by
  unfold next
  apply Int.ediv_le_of_le_mul hk
  nlinarith

theorem next_of_close (hk : 0 < k) (hx : x ≤ m) (hclose : m - x < k) : next k x m = x := by
  rw [next_eq hk, Int.ediv_eq_zero_of_lt (by linarith) hclose, add_zero]

theorem lt_next (hk : 0 < k) (hfar : k ≤ m - x) : x < next k x m := by
  have hq : 1 ≤ (m - x) / k := (Int.le_ediv_iff_mul_le hk).2 (by linarith)
  rw [next_eq hk]
  linarith

theorem next_le_of_far (hk : 0 < k) (hfar : k ≤ m - x) : next k x m ≤ m - (k - 1) := by
  have hq : 1 ≤ (m - x) / k := (Int.le_ediv_iff_mul_le hk).2 (by linarith)
  have hmul : (m - x) / k * k ≤ m - x := Int.ediv_mul_le _ hk.ne'
  -- (q - 1) * (k - 1) ≥ 0 for the quotient q
  have hprod : 0 ≤ ((m - x) / k - 1) * (k - 1) := mul_nonneg (by linarith) (by linarith)
  rw [next_eq hk]
  nlinarith

theorem next_le_limit (hk : 0 < k) (hx : x ≤ m) : next k x m ≤ limit k x m := by
  by_cases hclose : m - x < k
  · rw [next_of_close hk hx hclose]
    exact le_max_left _ _
  · exact (next_le_of_far hk (not_lt.1 hclose)).trans (le_max_right _ _)

theorem limit_next (hk : 0 < k) (hx : x ≤ m) : limit k (next k x m) m = limit k x m := by
  by_cases hclose : m - x < k
  · rw [next_of_close hk hx hclose]
  · have hle := next_le_of_far hk (not_lt.1 hclose)
    have hlt := lt_next hk (not_lt.1 hclose)
    unfold limit
    rw [max_eq_right hle, max_eq_right (hlt.le.trans hle)]

/-- **The average reaches its limit and stays there.** -/
theorem reaches_limit (hk : 0 < k) {x m : ℤ} (hx : x ≤ m) :
    ∃ N, ∀ n, N ≤ n → (fun y => next k y m)^[n] x = limit k x m := by
  -- each step of a gap of at least k makes the gap smaller
  induction hgap : (m - x).toNat using Nat.strong_induction_on generalizing x with
  | _ gap ih =>
    by_cases hclose : m - x < k
    · have hfix : Function.IsFixedPt (fun y => next k y m) x := next_of_close hk hx hclose
      refine ⟨0, fun n _ => ?_⟩
      rw [hfix.iterate n, limit, max_eq_left (by linarith)]
    · have hlt := lt_next hk (not_lt.1 hclose)
      have hle : next k x m ≤ m := next_le hk hx le_rfl
      obtain ⟨N, hN⟩ := ih (m - next k x m).toNat (by omega) hle rfl
      refine ⟨N + 1, fun n hn => ?_⟩
      obtain ⟨n, rfl⟩ : ∃ j, n = j + 1 := ⟨n - 1, by omega⟩
      rw [Function.iterate_succ_apply, hN n (by omega), limit_next hk hx]

end LuluExt.Smoothing
