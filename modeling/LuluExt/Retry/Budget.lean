/-
`WithMaxTotalWait`: the total time of `Retrier.Do`, measured at the start of each attempt.

`Do` asks the clock once after each attempt, before it sleeps. A backoff that does not fit into what remains is cut to
it, so the sleep ends at the deadline at the earliest; and the next attempt is made without another look at the clock.
-/
import LuluExt.Retry.Spec

namespace LuluExt.Retry

variable {ε σ : Type}

/-- `begins` are the instants at which the attempts start, on a clock that does not go back and with sleeps that are not
shorter than asked -/
structure Timed (r : Retrier ε) (w : World) (begins : ℕ → ℤ) : Prop where
  start : w.start ≤ begins 0
  attempt : ∀ k, begins k ≤ w.now k
  next : ∀ k, w.now k ≤ begins (k + 1)
  sleep : ∀ k d, r.wait w k = some d → w.now k + d ≤ begins (k + 1)

def Retrier.pause (r : Retrier ε) (w : World) (attempt : ℕ) : ℤ := r.jitter (r.backoff attempt) (w.draws attempt)

/-- what remains of the total time after an attempt -/
def Retrier.remaining (r : Retrier ε) (w : World) (attempt : ℕ) : ℤ := r.maxTotalWait - (w.now attempt - w.start)

/-- by how much the sleep after an attempt took longer than asked -/
def Retrier.late (r : Retrier ε) (w : World) (begins : ℕ → ℤ) (attempt : ℕ) : ℤ :=
  begins (attempt + 1) - (w.now attempt + min (r.pause w attempt) (r.remaining w attempt))

/-- no attempt that is made, other than the first, starts at or after the deadline -/
def WithinBudget (r : Retrier ε) (w : World) (fn : ℕ → σ → Option ε × σ) (s : σ) (begins : ℕ → ℤ) : Prop :=
  ∀ k, 0 < k → k < r.calls w fn s → begins k < w.start + r.maxTotalWait

section

variable {r : Retrier ε} {w : World} {begins : ℕ → ℤ}

theorem wait_eq (hmax : 0 < r.maxTotalWait) {k : ℕ} (hrem : 0 < r.remaining w k) :
    r.wait w k = some (min (r.pause w k) (r.remaining w k)) := by
  have hover : ¬ r.maxTotalWait - (w.now k - w.start) ≤ 0 := not_le.2 hrem
  simp only [Retrier.wait, hmax, hover]
  rfl

theorem wait_le (hmax : 0 < r.maxTotalWait) {k : ℕ} {d : ℤ} (hd : r.wait w k = some d) :
    d ≤ r.pause w k ∧ d ≤ r.remaining w k := by
  have hrem : 0 < r.remaining w k := by
    by_contra hover
    have hnone : r.wait w k = none := by
      rw [wait_eq_none_iff]
      unfold Retrier.remaining at hover
      omega
    rw [hnone] at hd
    cases hd
  rw [wait_eq hmax hrem, Option.some.injEq] at hd
  omega

theorem late_nonneg (hmax : 0 < r.maxTotalWait) (ht : Timed r w begins) (k : ℕ) : 0 ≤ r.late w begins k := by
  have hnext := ht.next k
  by_cases hrem : 0 < r.remaining w k
  · have hsleep := ht.sleep k _ (wait_eq hmax hrem)
    unfold Retrier.late
    omega
  · -- nothing remains, and the next attempt is not before the clock was read
    unfold Retrier.late
    omega

theorem starts_in_time_iff (hmax : 0 < r.maxTotalWait) (ht : Timed r w begins) (k : ℕ) :
    begins (k + 1) < w.start + r.maxTotalWait ↔ r.pause w k + r.late w begins k < r.remaining w k := by
  have hlate := late_nonneg hmax ht k
  have hdeadline : w.start + r.maxTotalWait = w.now k + r.remaining w k := by
    unfold Retrier.remaining
    omega
  have hbegins : begins (k + 1) = w.now k + min (r.pause w k) (r.remaining w k) + r.late w begins k := by
    unfold Retrier.late
    omega
  omega

end

/-- **When the total time is kept.** No attempt but the first starts at or after the deadline if and only if, after each
attempt that another one follows, the backoff (not cut) and the lateness of the sleep fit into what remains. A backoff
that is cut always leads to an attempt after the deadline. -/
theorem budget_iff (r : Retrier ε) (w : World) (fn : ℕ → σ → Option ε × σ) (s : σ) (begins : ℕ → ℤ)
    (hmax : 0 < r.maxTotalWait) (ht : Timed r w begins) :
    WithinBudget r w fn s begins ↔
      ∀ k, k + 1 < r.calls w fn s → r.pause w k + r.late w begins k < r.remaining w k := by
  constructor
  · intro h k hk
    exact (starts_in_time_iff hmax ht k).1 (h (k + 1) (Nat.succ_pos k) hk)
  · intro h k hpos hk
    obtain ⟨j, rfl⟩ := Nat.exists_eq_succ_of_ne_zero hpos.ne'
    exact (starts_in_time_iff hmax ht j).2 (h j hk)

def fixedBackoff (d : ℤ) (_ : ℕ) : ℤ := d

/-- a total of 10 ms, with the same backoff after each attempt -/
def tenMillis (backoff : ℤ) : Retrier GoError :=
  new Go.amd64 [withBackoff (fixedBackoff backoff), withMaxTotalWait (10 * millisecond)]

/-- attempts that start once in a period and take one millisecond -/
def periodic (period : ℤ) : World := { idleWorld with now := fun k => k * period + millisecond }

def alwaysFails (_ : ℕ) (_ : Unit) : Option GoError × Unit := (some ⟨"unavailable"⟩, ())

theorem periodic_timed {r : Retrier ε} {period : ℤ} (hp : millisecond ≤ period)
    (hwait : ∀ k d, r.wait (periodic period) k = some d → d ≤ period - millisecond) :
    Timed r (periodic period) fun k => k * period := by
  have hmilli : (0 : ℤ) < millisecond := by decide
  refine ⟨by simp [periodic, idleWorld], ?_, ?_, ?_⟩
  · intro k
    simp only [periodic]
    omega
  · intro k
    simp only [periodic]
    push_cast
    rw [add_mul]
    omega
  · intro k d hd
    have hle := hwait k d hd
    simp only [periodic]
    push_cast
    rw [add_mul]
    omega

/-- a backoff of 2 ms: the attempts start at 0, 3 and 6 ms -/
theorem twoMillis_withinBudget :
    WithinBudget (tenMillis (2 * millisecond)) (periodic (3 * millisecond)) alwaysFails ()
      fun k => k * (3 * millisecond) := by
  refine (budget_iff _ _ _ _ _ (by decide) (periodic_timed (by decide) ?_)).2 ?_
  · intro k d hd
    exact (wait_le (by decide) hd).1
  · have hcalls : (tenMillis (2 * millisecond)).calls (periodic (3 * millisecond)) alwaysFails () = 3 := by decide
    intro k hk
    have hk' : k = 0 ∨ k = 1 := by omega
    rcases hk' with rfl | rfl
    · decide
    · decide

/-- **An attempt at the deadline.** With a total of 10 ms and a backoff of 20 ms, the first attempt ends after one
millisecond, the sleep is cut to nine, and the second attempt is made at the deadline. -/
theorem attempt_at_deadline :
    Timed (tenMillis (20 * millisecond)) (periodic (10 * millisecond)) (fun k => k * (10 * millisecond)) ∧
    (tenMillis (20 * millisecond)).wait (periodic (10 * millisecond)) 0 = some (9 * millisecond) ∧
    1 < (tenMillis (20 * millisecond)).calls (periodic (10 * millisecond)) alwaysFails () ∧
    ¬ WithinBudget (tenMillis (20 * millisecond)) (periodic (10 * millisecond)) alwaysFails ()
      fun k => k * (10 * millisecond) := by
  have htimed : Timed (tenMillis (20 * millisecond)) (periodic (10 * millisecond)) fun k => k * (10 * millisecond) := by
    refine periodic_timed (by decide) ?_
    intro k d hd
    have hle := (wait_le (by decide) hd).2
    have hpos : (0 : ℤ) ≤ k * (10 * millisecond) := Int.mul_nonneg (by omega) (by decide)
    simp only [Retrier.remaining, periodic, idleWorld] at hle
    have htotal : (tenMillis (20 * millisecond)).maxTotalWait = 10 * millisecond := rfl
    omega
  have hcalls : 1 < (tenMillis (20 * millisecond)).calls (periodic (10 * millisecond)) alwaysFails () := by decide
  refine ⟨htimed, by decide, hcalls, fun h => ?_⟩
  exact absurd (h 1 Nat.one_pos hcalls) (by decide)

end LuluExt.Retry
