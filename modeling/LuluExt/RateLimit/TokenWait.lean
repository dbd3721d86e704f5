/-
Is the wait of the token bucket long enough?

An attempt that finds less than a token is told to wait until the missing fraction is refilled, rounded down to whole
nanoseconds. What the rounding cuts off is less than a nanosecond, and an attempt that would have to wait less than a
nanosecond is admitted. But the bucket does not hold more than `burst`, and `New` accepts a burst below one.
-/
import LuluExt.RateLimit.TokenBucket

namespace LuluExt.TokenBucket

open Run

def Admits (plat : Go.Platform) (l : Limiter) (now : ℕ) : Prop := (takeLocked plat l 1 now).1.2 ≤ 0

instance (plat : Go.Platform) (l : Limiter) (now : ℕ) : Decidable (Admits plat l now) := by
  unfold Admits; infer_instance

/-- the nanoseconds that an attempt at `now` is short of a token -/
def due (l : Limiter) (now : ℕ) : ℚ := max ((1 - l.burst) / l.rate * 10 ^ 9) (delay l 1 - (now - l.last))

theorem delay_replenish {l : Limiter} {now : ℕ} (ht : l.last ≤ now) (hb : l.tokens ≤ l.burst) :
    delay (replenish l now) 1 = due l now := by
  have hrate := l.rate_pos
  have hscale : 0 ≤ 10 ^ 9 / l.rate := by positivity
  have hmul : ∀ x : ℚ, x / l.rate * 10 ^ 9 = x * (10 ^ 9 / l.rate) := fun x => by ring
  have hdelay : delay l 1 - (now - l.last) =
      (1 - (l.tokens + l.rate / 10 ^ 9 * (now - l.last))) * (10 ^ 9 / l.rate) := by
    unfold delay
    field_simp
    ring
  rw [delay, replenish_rate, (replenish_spec ht hb).2, level, due, hdelay, hmul, hmul, ← max_mul_of_nonneg _ _ hscale,
    max_sub_sub_left]

/-- **Admission** is a matter of what is due: less than a nanosecond, or so much that the platform's conversion is not
positive. -/
theorem admits_iff (plat : Go.Platform) {l : Limiter} {now : ℕ} (ht : l.last ≤ now) (hb : l.tokens ≤ l.burst) :
    Admits plat l now ↔ due l now < 1 ∨ 2 ^ 63 ≤ due l now ∧ plat.outOfRange (due l now) ≤ 0 := by
  have hdue := delay_replenish ht hb
  rcases takeLocked_cases plat l now with ⟨hfull, htake⟩ | ⟨hless, htake⟩
  · have hneg : due l now ≤ 0 := by
      rw [← hdue]
      have hrate := (replenish l now).rate_pos
      have hnum : 1 - (replenish l now).tokens ≤ 0 := by linarith
      exact mul_nonpos_of_nonpos_of_nonneg (div_nonpos_of_nonpos_of_nonneg hnum hrate.le) (by positivity)
    rw [Admits, htake]
    exact iff_of_true le_rfl (.inl (by linarith))
  · have hnonneg : 0 ≤ due l now := by
      rw [← hdue, le_delay_iff]
      linarith
    rw [Admits, htake, hdue, ← not_lt, plat.int64_pos_iff hnonneg]
    simp only [not_and_or, not_le, Classical.not_imp, not_lt]

/-! ## After a wait -/

section

variable {plat : Go.Platform} {l l' : Limiter} {t : ℕ} {w : ℤ}

theorem blocked_spec (ht : l.last ≤ t) (hb : l.tokens ≤ l.burst) (htake : takeLocked plat l 1 t = ((t, w), l'))
    (hw : 0 < w) :
    l'.last = t ∧ l'.tokens ≤ l'.burst ∧ w = plat.int64 (delay l' 1) ∧ 0 ≤ delay l' 1 := by
  rcases takeLocked_cases plat l t with ⟨-, heq⟩ | ⟨hless, heq⟩
  · rw [heq] at htake
    obtain rfl : 0 = w := congrArg (fun r => r.1.2) htake
    exact absurd hw (lt_irrefl _)
  · rw [heq] at htake
    obtain rfl : replenish l t = l' := congrArg Prod.snd htake
    obtain ⟨hlast, htokens⟩ := replenish_spec ht hb
    refine ⟨hlast, ?_, (congrArg (fun r => r.1.2) htake).symm, ?_⟩
    · rw [htokens, replenish_burst]
      exact min_le_left _ _
    · rw [le_delay_iff]
      linarith

/-- once the wait is over, what the rounding cut off and what the bucket cannot hold are due -/
theorem due_lt_one_iff (hlast : l.last = t) (hb : l.tokens ≤ l.burst) (h0 : 0 ≤ delay l 1) (hfit : delay l 1 < 2 ^ 63)
    {t' : ℕ} (ht' : t + plat.int64 (delay l 1) ≤ t') :
    (due l t' < 1 ↔ (1 - l.burst) * 10 ^ 9 < l.rate) ∧ due l t' < 2 ^ 63 := by
  have hrate := l.rate_pos
  have hwait : plat.int64 (delay l 1) = ⌊delay l 1⌋ := by
    have hfloor : 0 ≤ ⌊delay l 1⌋ := Int.floor_nonneg.2 h0
    have hlt : ⌊delay l 1⌋ < 2 ^ 63 := Int.floor_lt.2 (by exact_mod_cast hfit)
    have htrunc : Go.trunc (delay l 1) = ⌊delay l 1⌋ := if_pos h0
    rw [Go.Platform.int64, htrunc, if_pos ⟨by omega, hlt⟩]
  have hslept : ((⌊delay l 1⌋ : ℤ) : ℚ) ≤ t' - l.last := by
    rw [hwait] at ht'
    rw [hlast, le_sub_iff_add_le']
    exact_mod_cast ht'
  have hcut : delay l 1 - (t' - l.last) < 1 := by
    have hlt := Int.lt_floor_add_one (delay l 1)
    linarith
  have hcap : (1 - l.burst) / l.rate * 10 ^ 9 ≤ delay l 1 := by
    unfold delay
    gcongr
  refine ⟨?_, max_lt (hcap.trans_lt hfit) ?_⟩
  · rw [due, max_lt_iff, and_iff_left hcut, div_mul_eq_mul_div, div_lt_one hrate]
  · linarith

theorem wait_once_iff (hopen : l.closed = false) (hclosed : l'.closed = false)
    (htake : takeLocked plat l 1 t = ((t, w), l')) (hw : 0 < w) (t' : ℕ) :
    (wait plat l t [.retry t']).1 = some none ↔ Admits plat l' t' := by
  have hround : waitRound plat l t = (.blocked w, l') := by
    simp [waitRound, hopen, htake, hw]
  unfold wait
  simp only [hround]
  unfold wait
  simp only [waitRound, hclosed]
  by_cases had : (takeLocked plat l' 1 t').1.2 ≤ 0
  · simp [had, Admits]
  · simp [had, Admits]

theorem takeLocked_closed (plat : Go.Platform) (l : Limiter) (now : ℕ) :
    (takeLocked plat l 1 now).2.closed = l.closed := by
  have hreplenish : (replenish l now).closed = l.closed := by
    unfold replenish
    split_ifs <;> rfl
  rcases takeLocked_cases plat l now with ⟨-, htake⟩ | ⟨-, htake⟩ <;> simp [htake, hreplenish]

end

/-! ## Every limiter -/

/-- **The wait.** Let an attempt at `t` have to wait `w`. Then an attempt at `t'` after the wait is admitted exactly
when what is then due is less than a nanosecond, or too much for the platform; if the wait fits a duration, if and only
if the burst is at least one or short of one by less than a nanosecond's refill. And a `Wait` alone on the limiter
returns nil after one sleep under the same condition. -/
theorem wait_suffices_iff (plat : Go.Platform) (rate burst : ℚ) (now0 : ℕ) (l0 : Limiter)
    (hl : new rate burst now0 = .ok l0) (ops : List Op) (htimely : Along (step plat) Timely ⟨l0, []⟩ ops)
    (t t' : ℕ) (w : ℤ) (l' : Limiter) (ht : (run (step plat) ⟨l0, []⟩ ops).limiter.last ≤ t)
    (htake : takeLocked plat (run (step plat) ⟨l0, []⟩ ops).limiter 1 t = ((t, w), l')) (hw : 0 < w)
    (ht' : t + w ≤ t') :
    (Admits plat l' t' ↔ due l' t' < 1 ∨ 2 ^ 63 ≤ due l' t' ∧ plat.outOfRange (due l' t') ≤ 0) ∧
      (delay l' 1 < 2 ^ 63 → (Admits plat l' t' ↔ (1 - burst) * 10 ^ 9 < rate)) ∧
      (delay l' 1 < 2 ^ 63 → (run (step plat) ⟨l0, []⟩ ops).limiter.closed = false →
        ((wait plat (run (step plat) ⟨l0, []⟩ ops).limiter t [.retry t']).1 = some none ↔
          (1 - burst) * 10 ^ 9 < rate)) := by
  have hsized : Sized rate burst (run (step plat) ⟨l0, []⟩ ops) :=
    (always_of_along (P := Sized rate burst) (fun _ h => h) (fun _ _ h ho => h.step plat ho) (kept_new hl).2.toSized
      htimely).last
  obtain ⟨hrate, hburst, hcap⟩ := hsized
  generalize (run (step plat) ⟨l0, []⟩ ops).limiter = l at *
  obtain ⟨hlast, hcap', rfl, h0⟩ := blocked_spec ht hcap htake hw
  have hconfig : l'.rate = rate ∧ l'.burst = burst := by
    have hl' := takeLocked_config plat l t
    rw [htake] at hl'
    exact ⟨hl'.1.trans hrate, hl'.2.trans hburst⟩
  have hlater : l'.last ≤ t' := by omega
  have hadmits := admits_iff plat hlater hcap'
  have hfits : delay l' 1 < 2 ^ 63 → (Admits plat l' t' ↔ (1 - burst) * 10 ^ 9 < rate) := by
    intro hfit
    obtain ⟨hone, hbound⟩ := due_lt_one_iff hlast hcap' h0 hfit ht'
    rw [hconfig.1, hconfig.2] at hone
    rw [hadmits, hone, or_iff_left fun h => absurd h.1 (not_le.2 hbound)]
  refine ⟨hadmits, hfits, fun hfit hopen => ?_⟩
  have hopen' : l'.closed = false := by
    have hl' := takeLocked_closed plat l t
    rw [htake] at hl'
    exact hl'.trans hopen
  rw [wait_once_iff hopen hopen' htake hw, hfits hfit]

/-- the limiter of three requests a second, after its first request -/
def drained : Limiter := (run (step Go.amd64) ⟨three, []⟩ [.allow 0]).limiter

/-- the third of a second is rounded down, and the attempt after it is admitted -/
theorem wait_suffices_three :
    (takeLocked Go.amd64 drained 1 0).1 = (0, 333333333) ∧
      Admits Go.amd64 (takeLocked Go.amd64 drained 1 0).2 333333333 ∧
      (wait Go.amd64 drained 0 [.retry 333333333]).1 = some none := by
  have hfirst : (takeLocked Go.amd64 drained 1 0).1 = (0, 333333333) := by decide +kernel
  have hwait := wait_suffices_iff Go.amd64 3 1 0 three rfl [.allow 0] (by decide +kernel) 0 333333333 333333333
    (takeLocked Go.amd64 drained 1 0).2 (by decide +kernel) (Prod.ext hfirst rfl) (by norm_num) (by norm_num)
  have hfit : delay (takeLocked Go.amd64 drained 1 0).2 1 < 2 ^ 63 := by decide +kernel
  have hopen : drained.closed = false := by decide +kernel
  exact ⟨hfirst, (hwait.2.1 hfit).2 (by norm_num), (hwait.2.2 hfit hopen).2 (by norm_num)⟩

theorem half_burst_pos : (0 : ℚ) < 1 / 2 := by norm_num

/-- the limiter of one request a second, with a bucket for half a token -/
def half : Limiter := ⟨1, 1 / 2, 1 / 2, 0, false, one_pos, half_burst_pos⟩

/-- the half token that is missing takes half a second, and after it half a token is missing -/
theorem half_token_burst :
    new 1 (1 / 2) 0 = .ok half ∧ (takeLocked Go.amd64 half 1 0).1 = (0, 500000000) ∧
      ¬ Admits Go.amd64 (takeLocked Go.amd64 half 1 0).2 500000000 ∧
      (takeLocked Go.amd64 (takeLocked Go.amd64 half 1 0).2 1 500000000).1 = (500000000, 500000000) ∧
      (wait Go.amd64 half 0 [.retry 500000000, .retry 1000000000]).1 = none := by
  refine ⟨?_, by decide +kernel⟩
  rw [new, dif_neg (by norm_num)]
  rfl

end LuluExt.TokenBucket
