/-
Linear backoff, and the jitters.

`Delay(attempt)` is `Initial + Step*attempt` in 64 bits, capped at `Max`. The cap is applied to the sum: one that has
overflowed is negative and passes below it. `FullJitter` and `EqualJitter` scale a delay by a random number of [0, 1).
-/
import LuluExt.Retry.Budget

namespace LuluExt.Retry

variable {ε σ : Type}

structure LinearBackoff where
  initial : ℤ
  step : ℤ
  max : ℤ

def LinearBackoff.delay (l : LinearBackoff) (attempt : ℕ) : ℤ :=
  let d := Go.wrap64 (l.initial + Go.wrap64 (l.step * attempt))
  if l.max > 0 ∧ d > l.max then l.max else d

def fullJitter (plat : Go.Platform) (delay : ℤ) (rng : ℕ → ℚ) : ℤ := plat.int64 (delay * rng 0)

def equalJitter (plat : Go.Platform) (delay : ℤ) (rng : ℕ → ℚ) : ℤ :=
  let half := delay.tdiv 2
  half + plat.int64 (half * rng 0)

/-! ## Delays -/

/-- durations of 64 bits; the maximum is set -/
structure LinearBackoff.Valid (l : LinearBackoff) : Prop where
  initial_nonneg : 0 ≤ l.initial
  initial_lt : l.initial < 2 ^ 63
  step_nonneg : 0 ≤ l.step
  step_lt : l.step < 2 ^ 63
  max_pos : 0 < l.max
  max_lt : l.max < 2 ^ 63

def LinearBackoff.sum (l : LinearBackoff) (k : ℕ) : ℤ := l.initial + l.step * k

/-- no sum overflows that is computed in `n` attempts -/
def LinearBackoff.Fits (l : LinearBackoff) (n : ℕ) : Prop := ∀ k, k + 1 < n → l.sum k < 2 ^ 63

namespace LinearBackoff

variable {l : LinearBackoff} (h : l.Valid)

theorem delay_eq (l : LinearBackoff) (k : ℕ) :
    l.delay k = if l.max > 0 ∧ Go.wrap64 (l.sum k) > l.max then l.max else Go.wrap64 (l.sum k) := by
  unfold delay
  rw [Go.wrap64_add_wrap64]
  rfl

theorem sum_succ (l : LinearBackoff) (k : ℕ) : l.sum (k + 1) = l.sum k + l.step := by
  simp only [sum, Nat.cast_add]
  ring

include h

theorem sum_nonneg (k : ℕ) : 0 ≤ l.sum k := by
  have hprod : 0 ≤ l.step * k := mul_nonneg h.step_nonneg (Int.natCast_nonneg k)
  have hinit := h.initial_nonneg
  unfold sum
  omega

theorem sum_mono {j k : ℕ} (hjk : j ≤ k) : l.sum j ≤ l.sum k := by
  have hstep := h.step_nonneg
  unfold sum
  gcongr

theorem delay_of_fits {k : ℕ} (hk : l.sum k < 2 ^ 63) : l.delay k = min (l.sum k) l.max := by
  have h0 := sum_nonneg h k
  rw [delay_eq, Go.wrap64_of_lt (by omega) hk]
  by_cases hmax : l.sum k > l.max
  · rw [if_pos ⟨h.max_pos, hmax⟩, min_eq_right hmax.le]
  · rw [if_neg fun hc => hmax hc.2, min_eq_left (not_lt.1 hmax)]

/-- the first sum to overflow is at least two below zero, and not capped -/
theorem delay_of_overflow {k : ℕ} (hk : l.sum k < 2 ^ 63) (hover : 2 ^ 63 ≤ l.sum (k + 1)) :
    -2 ^ 63 ≤ l.delay (k + 1) ∧ l.delay (k + 1) ≤ -2 := by
  have hstep := h.step_lt
  have hsucc := l.sum_succ k
  rw [delay_eq, Go.wrap64_of_le hover (by omega)]
  omega

theorem exists_overflow {n : ℕ} (hn : ¬ l.Fits n) :
    ∃ k, k + 2 < n ∧ l.sum k < 2 ^ 63 ∧ 2 ^ 63 ≤ l.sum (k + 1) := by
  have hex : ∃ k, k + 1 < n ∧ 2 ^ 63 ≤ l.sum k := by
    simpa only [Fits, not_forall, not_lt, exists_prop] using hn
  obtain ⟨k, ⟨hlt, hover⟩, hfirst⟩ := Nat.findX hex
  cases k with
  | zero =>
    have hinit := h.initial_lt
    simp only [sum] at hover
    omega
  | succ k => exact ⟨k, hlt, not_le.1 fun hc => hfirst k (Nat.lt_succ_self k) ⟨by omega, hc⟩, hover⟩

/-- **Delays do not decrease** over the attempts but the last exactly when no sum overflows. -/
theorem monotone_iff (n : ℕ) : (∀ j k, j ≤ k → k + 1 < n → l.delay j ≤ l.delay k) ↔ l.Fits n := by
  constructor
  · intro hmono
    by_contra hn
    obtain ⟨k, hk, hfit, hover⟩ := exists_overflow h hn
    have hle := hmono k (k + 1) (Nat.le_succ k) hk
    have hneg := (delay_of_overflow h hfit hover).2
    have hnonneg : 0 ≤ l.delay k := by
      rw [delay_of_fits h hfit]
      exact le_min (sum_nonneg h k) h.max_pos.le
    omega
  · intro hfits j k hjk hk
    rw [delay_of_fits h (hfits k hk), delay_of_fits h (hfits j (by omega))]
    exact min_le_min_right _ (sum_mono h hjk)

end LinearBackoff

/-! ## Jitters -/

inductive IsJitter (plat : Go.Platform) : (ℤ → (ℕ → ℚ) → ℤ) → Prop
  | none : IsJitter plat noJitter
  | full : IsJitter plat (fullJitter plat)
  | equal : IsJitter plat (equalJitter plat)

theorem scaled_mem (plat : Go.Platform) {d : ℤ} (h0 : 0 ≤ d) (hd : d < 2 ^ 63) {u : ℚ} (hu0 : 0 ≤ u) (hu1 : u < 1) :
    0 ≤ plat.int64 (d * u) ∧ plat.int64 (d * u) ≤ d := by
  have hdq : (0 : ℚ) ≤ d := by exact_mod_cast h0
  have hprod : 0 ≤ d * u := mul_nonneg hdq hu0
  have hle : d * u ≤ d := mul_le_of_le_one_right hdq hu1.le
  have hfloor : 0 ≤ ⌊d * u⌋ := Int.floor_nonneg.2 hprod
  have hfloor' : ⌊d * u⌋ ≤ d := Int.floor_le_iff.2 (by linarith)
  have htrunc : Go.trunc (d * u) = ⌊d * u⌋ := if_pos hprod
  rw [Go.Platform.int64, htrunc, if_pos ⟨by omega, by omega⟩]
  exact ⟨hfloor, hfloor'⟩

theorem IsJitter.mem {plat : Go.Platform} {j : ℤ → (ℕ → ℚ) → ℤ} (hj : IsJitter plat j) {d : ℤ} (h0 : 0 ≤ d)
    (hd : d < 2 ^ 63) {rng : ℕ → ℚ} (hu : 0 ≤ rng 0 ∧ rng 0 < 1) : 0 ≤ j d rng ∧ j d rng ≤ d := by
  cases hj with
  | none => exact ⟨h0, le_rfl⟩
  | full => exact scaled_mem plat h0 hd hu.1 hu.2
  | equal =>
    have hhalf : d.tdiv 2 = d / 2 := Int.tdiv_eq_ediv_of_nonneg h0
    obtain ⟨hlow, hhigh⟩ := scaled_mem plat (d := d.tdiv 2) (by omega) (by omega) hu.1 hu.2
    simp only [equalJitter]
    omega

theorem scaled_half_neg (plat : Go.Platform) {d : ℤ} (hd : d ≤ -2) (hd' : -2 ^ 63 ≤ d) :
    plat.int64 (d * (1 / 2)) < 0 := by
  have hdq : (d : ℚ) ≤ -2 := by exact_mod_cast hd
  have hneg : ¬ 0 ≤ (d : ℚ) * (1 / 2) := by linarith
  have hceil : ⌈(d : ℚ) * (1 / 2)⌉ ≤ -1 := Int.ceil_le.2 (by push_cast; linarith)
  have hceil' : d ≤ ⌈(d : ℚ) * (1 / 2)⌉ := by
    have hle := Int.le_ceil ((d : ℚ) * (1 / 2))
    have hlow : (d : ℚ) ≤ ⌈(d : ℚ) * (1 / 2)⌉ := by linarith
    exact_mod_cast hlow
  have htrunc : Go.trunc (d * (1 / 2)) = ⌈(d : ℚ) * (1 / 2)⌉ := if_neg hneg
  rw [Go.Platform.int64]
  omega

theorem IsJitter.neg {plat : Go.Platform} {j : ℤ → (ℕ → ℚ) → ℤ} (hj : IsJitter plat j) {d : ℤ} (hd : d ≤ -2)
    (hd' : -2 ^ 63 ≤ d) : ∃ u : ℚ, 0 ≤ u ∧ u < 1 ∧ j d (fun _ => u) < 0 := by
  cases hj with
  | none => exact ⟨0, le_rfl, one_pos, by simp only [noJitter]; omega⟩
  | full => exact ⟨1 / 2, by norm_num, by norm_num, scaled_half_neg plat hd hd'⟩
  | equal =>
    refine ⟨0, le_rfl, one_pos, ?_⟩
    have hzero : plat.int64 0 = 0 := by simp [Go.Platform.int64, Go.trunc]
    simp only [equalJitter, mul_zero]
    have hhalf : d.tdiv 2 = -((-d) / 2) := by
      rw [show d = -(-d) by ring, Int.neg_tdiv, Int.tdiv_eq_ediv_of_nonneg (by omega), neg_neg]
    omega

/-! ## Waits -/

def World.UnitDraws (w : World) : Prop := ∀ k i, 0 ≤ w.draws k i ∧ w.draws k i < 1

theorem wait_mem {r : Retrier ε} {w : World} {k : ℕ} {max d : ℤ} (hpause : 0 ≤ r.pause w k ∧ r.pause w k ≤ max)
    (hd : r.wait w k = some d) : 0 ≤ d ∧ d ≤ max := by
  unfold Retrier.pause at hpause
  simp only [Retrier.wait] at hd
  split_ifs at hd with htotal hover
  · rw [Option.some.injEq] at hd
    omega
  · rw [Option.some.injEq] at hd
    omega

/-- **Linear backoff.** The waits that `Do` computes after the attempts but the last lie in [0, Max] for all draws, if
and only if `Initial + Step*k` overflows for none of these attempts; and so for the delays being non-decreasing. They
stay in [0, Max] when they are cut to the total time that remains. -/
theorem linear_bounds_iff (plat : Go.Platform) (l : LinearBackoff) (h : l.Valid) (r : Retrier ε)
    (hb : r.backoff = l.delay) (hj : IsJitter plat r.jitter) :
    ((∀ w : World, w.UnitDraws → ∀ k, k + 1 < r.maxAttempts → 0 ≤ r.pause w k ∧ r.pause w k ≤ l.max) ↔
        l.Fits r.maxAttempts) ∧
      ((∀ j k, j ≤ k → k + 1 < r.maxAttempts → l.delay j ≤ l.delay k) ↔ l.Fits r.maxAttempts) ∧
      (l.Fits r.maxAttempts → ∀ w : World, w.UnitDraws → ∀ k d, k + 1 < r.maxAttempts → r.wait w k = some d →
        0 ≤ d ∧ d ≤ l.max) := by
  have hmem : l.Fits r.maxAttempts → ∀ w : World, w.UnitDraws → ∀ k, k + 1 < r.maxAttempts →
      0 ≤ r.pause w k ∧ r.pause w k ≤ l.max := by
    intro hfits w hw k hk
    have hdelay := LinearBackoff.delay_of_fits h (hfits k hk)
    have hsum := LinearBackoff.sum_nonneg h k
    have hmax := h.max_pos
    have hmax' := h.max_lt
    rw [Retrier.pause, hb]
    obtain ⟨hlow, hhigh⟩ := hj.mem (d := l.delay k) (by omega) (by omega) (hw k 0)
    exact ⟨hlow, by omega⟩
  refine ⟨⟨fun hall => ?_, hmem⟩, LinearBackoff.monotone_iff h r.maxAttempts, fun hfits w hw k d hk hd => ?_⟩
  · by_contra hn
    obtain ⟨k, hk, hfit, hover⟩ := LinearBackoff.exists_overflow h hn
    obtain ⟨hlow, hneg⟩ := LinearBackoff.delay_of_overflow h hfit hover
    obtain ⟨u, hu0, hu1, hwait⟩ := hj.neg hneg hlow
    have hpause := hall { idleWorld with draws := fun _ _ => u } (fun _ _ => ⟨hu0, hu1⟩) (k + 1) hk
    rw [Retrier.pause, hb] at hpause
    exact absurd hpause.1 (not_le.2 hwait)
  · exact wait_mem (hmem hfits w hw k hk) hd

def linearRetrier (l : LinearBackoff) (jitter : ℤ → (ℕ → ℚ) → ℤ) : Retrier GoError :=
  new Go.amd64 [withMaxAttempts 4, withBackoff l.delay, withJitter jitter]

def everySecond : LinearBackoff := ⟨second, second, 10 * second⟩

theorem everySecond_valid : everySecond.Valid := by
  refine ⟨?_, ?_, ?_, ?_, ?_, ?_⟩ <;> decide

/-- one second, two seconds and three, each of them at most ten -/
theorem linear_bounds_everySecond :
    (linearRetrier everySecond (fullJitter Go.amd64)).pause idleWorld 2 ≤ 10 * second := by
  have hbounds := linear_bounds_iff Go.amd64 everySecond everySecond_valid
    (linearRetrier everySecond (fullJitter Go.amd64)) (by simp [linearRetrier, new, withBackoff, withJitter]) .full
  refine (hbounds.1.2 (fun k hk => ?_) idleWorld (fun _ _ => ⟨le_rfl, one_pos⟩) 2 (by decide)).2
  have hmax : (linearRetrier everySecond (fullJitter Go.amd64)).maxAttempts = 4 := rfl
  simp only [LinearBackoff.sum, everySecond, second]
  omega

/-- a step of 2^62 ns: the third wait is the most negative duration, and the delays fall -/
theorem overflowing_step :
    (LinearBackoff.mk 0 (2 ^ 62) (10 * second)).Valid ∧
      (linearRetrier ⟨0, 2 ^ 62, 10 * second⟩ noJitter).pause idleWorld 1 = 10 * second ∧
      (linearRetrier ⟨0, 2 ^ 62, 10 * second⟩ noJitter).pause idleWorld 2 = -2 ^ 63 := by
  refine ⟨⟨?_, ?_, ?_, ?_, ?_, ?_⟩, ?_, ?_⟩ <;> decide +kernel

end LuluExt.Retry
