/-
When the sres breaker rejects.

The package documents its sensitivity by error rates: with K = 2 it starts to reject above 50%, with K = 1 it never
trips. The formula has `requests + 1` below the line and subtracts `K*errors` above it, so that the probability is below
one as soon as the window holds a request, and zero from `K*errors = requests` on.
-/
import LuluExt.CircuitBreaker.Sres

namespace LuluExt.Sres

open LuluExt.CircuitBreaker

def Accepts (b : Breaker) (now : ℕ) (draw : ℚ) : Prop := (allow b now draw).map Prod.fst = some none

instance (b : Breaker) (now : ℕ) (draw : ℚ) : Decidable (Accepts b now draw) := by
  unfold Accepts; infer_instance

/-! ## The acceptance probability -/

theorem statsLocked_nonneg (w : BucketRing SreBucket) : 0 ≤ (statsLocked w).requests ∧ 0 ≤ (statsLocked w).errors :=
  ⟨Nat.cast_nonneg _, Nat.cast_nonneg _⟩

variable (cfg : Config) {stats : WindowStats}

/-- a request in the window takes at least its share off the probability -/
theorem acceptance_le (hr : 0 ≤ stats.requests) (he : 0 ≤ stats.errors) :
    acceptance cfg stats ≤ 1 - 1 / (stats.requests + 1) := by
  have hke : 0 ≤ cfg.k * stats.errors := mul_nonneg cfg.k_pos.le he
  calc acceptance cfg stats ≤ stats.requests / (stats.requests + 1) := by
        unfold acceptance
        gcongr
        linarith
    _ = 1 - 1 / (stats.requests + 1) := by
        field_simp
        ring

theorem acceptance_nonpos_iff (hr : 0 ≤ stats.requests) :
    acceptance cfg stats ≤ 0 ↔ stats.requests ≤ cfg.k * stats.errors := by
  have hpos : 0 < stats.requests + 1 := by linarith
  rw [acceptance, div_le_iff₀ hpos, zero_mul, sub_nonpos]

theorem acceptProbability_eq (stats : WindowStats) :
    acceptProbability cfg stats = max 0 (if stats.requests > 0 then acceptance cfg stats else 1) := by
  simp only [acceptProbability]
  generalize (if stats.requests > 0 then acceptance cfg stats else 1) = accept
  by_cases h : accept < 0
  · rw [if_pos h, max_eq_left h.le]
  · rw [if_neg h, max_eq_right (not_lt.1 h)]

theorem acceptProbability_nonneg (stats : WindowStats) : 0 ≤ acceptProbability cfg stats := by
  rw [acceptProbability_eq]
  exact le_max_left _ _

theorem acceptProbability_empty (h : stats.requests = 0) : acceptProbability cfg stats = 1 := by
  simp [acceptProbability_eq, h]

theorem acceptProbability_le (hr : 0 < stats.requests) (he : 0 ≤ stats.errors) :
    acceptProbability cfg stats ≤ 1 - 1 / (stats.requests + 1) := by
  rw [acceptProbability_eq, if_pos hr]
  refine max_le ?_ (acceptance_le cfg hr.le he)
  rw [sub_nonneg, div_le_one (by linarith)]
  linarith

theorem acceptProbability_eq_zero_iff (hr : 0 ≤ stats.requests) :
    acceptProbability cfg stats = 0 ↔ 0 < stats.requests ∧ stats.requests ≤ cfg.k * stats.errors := by
  rw [acceptProbability_eq, max_eq_left_iff]
  split_ifs with h
  · rw [acceptance_nonpos_iff cfg hr]
    exact (and_iff_right h).symm
  · exact iff_of_false (by norm_num) fun hc => h hc.1

/-! ## `Allow` -/

section

variable {b : Breaker} {now : ℕ} {draw : ℚ}

theorem accepts_iff (hw : b.ring.Wf) (hc : b.closed = false) :
    Accepts b now draw ↔
      1 ≤ acceptProbability b.cfg (statsAt b now) ∨ draw < acceptProbability b.cfg (statsAt b now) := by
  rw [Accepts, allow_eq hw hc]
  by_cases h : 1 ≤ acceptProbability b.cfg (statsAt b now) ∨ draw < acceptProbability b.cfg (statsAt b now)
  · exact iff_of_true (by rw [if_pos h]; rfl) h
  · exact iff_of_false (by rw [if_neg h]; simp) h

theorem wf_of_answer (hb : 0 < b.ring.buckets.length) (hc : b.closed = false) {e : Option GoError}
    (h : (allow b now draw).map Prod.fst = some e) : b.ring.Wf := by
  refine ⟨Nat.pos_of_ne_zero fun hd => ?_, hb⟩
  rw [allow_none hd hc] at h
  cases h

theorem accepts_of_empty (hw : b.ring.Wf) (hc : b.closed = false) (hr : (statsAt b now).requests = 0) :
    Accepts b now draw :=
  (accepts_iff hw hc).2 (.inl (acceptProbability_empty b.cfg hr).ge)

theorem not_accepts (hw : b.ring.Wf) (hc : b.closed = false) (hr : (statsAt b now).requests ≠ 0)
    (hdraw : 1 - 1 / ((statsAt b now).requests + 1) ≤ draw) : ¬ Accepts b now draw := by
  obtain ⟨hr0, he0⟩ := statsLocked_nonneg (b.ring.rotate .zero now)
  have hpos : 0 < (statsAt b now).requests := lt_of_le_of_ne hr0 (Ne.symm hr)
  have hle := acceptProbability_le b.cfg hpos he0
  have hshare : 0 < 1 / ((statsAt b now).requests + 1) := by positivity
  rw [accepts_iff hw hc, not_or, not_lt]
  exact ⟨by linarith, hle.trans hdraw⟩

end

/-- no draw is accepted exactly when the window holds requests and `K*errors` has reached their number -/
theorem allow_never_iff (b : Breaker) (hb : 0 < b.ring.buckets.length) (hc : b.closed = false) (now : ℕ) :
    (∀ draw, 0 ≤ draw → draw < 1 → (allow b now draw).map Prod.fst = some (some errCircuitOpen)) ↔
      0 < b.ring.bucketDuration ∧ 0 < (statsAt b now).requests ∧
        (statsAt b now).requests ≤ b.cfg.k * (statsAt b now).errors := by
  have hr0 : 0 ≤ (statsAt b now).requests := (statsLocked_nonneg _).1
  rw [← acceptProbability_eq_zero_iff b.cfg hr0]
  refine ⟨fun h => ?_, fun ⟨hd, hzero⟩ draw hdraw _ => ?_⟩
  · have hzero := h 0 le_rfl one_pos
    have hw := wf_of_answer hb hc hzero
    have hrejects : ¬ Accepts b now 0 := by simp [Accepts, hzero]
    rw [accepts_iff hw hc, not_or, not_lt] at hrejects
    exact ⟨hw.duration_pos, le_antisymm hrejects.2 (acceptProbability_nonneg _ _)⟩
  · rw [allow_eq ⟨hd, hb⟩ hc, hzero, if_neg (by rw [not_or, not_lt]; exact ⟨by norm_num, hdraw⟩)]
    rfl

/-- **Certain acceptance and rejection.** `Allow` of a breaker that is not closed returns nil for every draw exactly
when buckets have a duration and the window holds no request; below 2^53 requests the largest draw of the generator is
enough to tell. It rejects every draw exactly when the window holds requests and `K*errors` has reached their number,
the error rate at which the package documents that it starts to reject. -/
theorem allow_always_iff (b : Breaker) (hb : 0 < b.ring.buckets.length) (hc : b.closed = false) (now : ℕ) :
    ((∀ draw, 0 ≤ draw → draw < 1 → Accepts b now draw) ↔
        0 < b.ring.bucketDuration ∧ (statsAt b now).requests = 0) ∧
      ((statsAt b now).requests < 2 ^ 53 →
        (Accepts b now (1 - 1 / 2 ^ 53) ↔ 0 < b.ring.bucketDuration ∧ (statsAt b now).requests = 0)) ∧
      ((∀ draw, 0 ≤ draw → draw < 1 → (allow b now draw).map Prod.fst = some (some errCircuitOpen)) ↔
        0 < b.ring.bucketDuration ∧ 0 < (statsAt b now).requests ∧
          (statsAt b now).requests ≤ b.cfg.k * (statsAt b now).errors) := by
  have hempty : 0 < b.ring.bucketDuration ∧ (statsAt b now).requests = 0 → ∀ draw, Accepts b now draw :=
    fun h draw => accepts_of_empty ⟨h.1, hb⟩ hc h.2
  have hr0 : 0 ≤ (statsAt b now).requests := (statsLocked_nonneg _).1
  refine ⟨⟨fun h => ?_, fun h draw _ _ => hempty h draw⟩, fun hsmall => ⟨fun h => ?_, fun h => hempty h _⟩,
    allow_never_iff b hb hc now⟩
  · have hw := wf_of_answer hb hc (h 0 le_rfl one_pos)
    refine ⟨hw.duration_pos, ?_⟩
    by_contra hr
    have hshare : 0 < 1 / ((statsAt b now).requests + 1) := by positivity
    have hone : 1 / ((statsAt b now).requests + 1) ≤ 1 := by
      rw [div_le_one (by linarith)]
      linarith
    exact not_accepts hw hc hr le_rfl (h (1 - 1 / ((statsAt b now).requests + 1)) (by linarith) (by linarith))
  · have hw := wf_of_answer hb hc h
    refine ⟨hw.duration_pos, ?_⟩
    by_contra hr
    refine not_accepts hw hc hr ?_ h
    -- the counts are whole numbers: below 2^53 requests the share of one is at least the generator's last digit
    obtain ⟨n, hn⟩ : ∃ n : ℕ, (statsAt b now).requests = n := ⟨_, rfl⟩
    rw [hn] at hsmall ⊢
    have hle : (n : ℚ) + 1 ≤ 2 ^ 53 := by exact_mod_cast Nat.succ_le_of_lt (by exact_mod_cast hsmall)
    have hshare : (1 : ℚ) / 2 ^ 53 ≤ 1 / (n + 1) := one_div_le_one_div_of_le (by positivity) hle
    linarith

def failedOnce : Breaker := (markFailure (new defaultConfig 0) 1).getD (new defaultConfig 0)

/-- a new breaker has no request in its window; after a failure even the draw 0 is rejected -/
theorem allow_always_iff_new :
    Accepts (new defaultConfig 0) 1 (3 / 4) ∧ (allow failedOnce 2 0).map Prod.fst = some (some errCircuitOpen) :=
  ⟨(allow_always_iff (new defaultConfig 0) (by decide) rfl 1).1.2 (by decide +kernel) (3 / 4) (by norm_num)
      (by norm_num),
    (allow_always_iff failedOnce (by decide +kernel) (by decide +kernel) 2).2.2.2 (by decide +kernel) 0 le_rfl one_pos⟩

/-- with K = 2 a window with one success and no error: `Allow` accepts with probability 1/2, and the draw 3/4 rejects -/
theorem healthy_rejected :
    (markSuccess (new defaultConfig 0) 1).map (fun b => (statsAt b 2).requests) = some 1 ∧
      (markSuccess (new defaultConfig 0) 1).map (fun b => defaultConfig.k * (statsAt b 2).errors) = some 0 ∧
      ((markSuccess (new defaultConfig 0) 1).bind fun b => (allow b 2 (3 / 4)).map Prod.fst) =
        some (some errCircuitOpen) := by
  decide +kernel

end LuluExt.Sres
