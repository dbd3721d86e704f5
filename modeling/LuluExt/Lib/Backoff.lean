/-
Delays between attempts that double up to a limit, which is tested before the doubling: `if d < max { d *= 2 }`.

The attempts are a log, the newest first: a failure with the delay that was slept after it, or a success; `outcomes`
forgets the delays. A success may set the delay back to the first one. `delay n` is the delay after n failures since
then. It rises (`delay_mono`) and stays as soon as it has come to the limit (`delay_of_le`), which it may have passed by
then: so the delays of a log are within the limit exactly when that many failures never follow one another
(`Follows.atMost_iff`).
-/
import Mathlib.Tactic

namespace LuluExt.Backoff

structure Rule where
  initial : ℕ
  max : ℕ
  /-- a success sets the delay back -/
  resets : Bool

def Rule.double (r : Rule) (d : ℕ) : ℕ := if d < r.max then d * 2 else d

/-- the delay after a number of failures -/
def Rule.delay (r : Rule) (n : ℕ) : ℕ := r.double^[n] r.initial

/-- the failures since the delay was set -/
def Rule.streak (r : Rule) : List Bool → ℕ
  | [] => 0
  | true :: failed => r.streak failed + 1
  | false :: failed => if r.resets then 0 else r.streak failed

/-- which attempts have failed -/
def outcomes (log : List (Option ℕ)) : List Bool := log.map Option.isSome

/-- each failure is followed by the delay for the failures before it -/
def Rule.Follows (r : Rule) : List (Option ℕ) → Prop
  | [] => True
  | some d :: log => d = r.delay (r.streak (outcomes log)) ∧ r.Follows log
  | none :: log => r.Follows log

/-- the delay does not fall from one failure to the next, if no success is between them -/
def Rising (log : List (Option ℕ)) : Prop :=
  log.IsChain fun later earlier => ∀ d' ∈ later, ∀ d ∈ earlier, d ≤ d'

/-- at no time are there more failures since the delay was set -/
def Rule.Within (r : Rule) (n : ℕ) (failed : List Bool) : Prop := ∀ l, l <:+ failed → r.streak l ≤ n

variable {r : Rule} {log : List (Option ℕ)} {m n : ℕ}

theorem delay_zero (r : Rule) : r.delay 0 = r.initial := rfl

theorem delay_succ (r : Rule) (n : ℕ) : r.delay (n + 1) = r.double (r.delay n) := Function.iterate_succ_apply' ..

theorem le_double (r : Rule) (d : ℕ) : d ≤ r.double d := by
  unfold Rule.double
  split_ifs <;> omega

theorem delay_mono (r : Rule) : Monotone r.delay := by
  refine monotone_nat_of_le_succ fun n => ?_
  rw [delay_succ]
  exact le_double r _

theorem initial_le_delay (r : Rule) (n : ℕ) : r.initial ≤ r.delay n := delay_mono r (Nat.zero_le n)

/-- a delay that has come to the limit stays -/
theorem delay_of_le (hn : r.max ≤ r.delay n) (hnm : n ≤ m) : r.delay m = r.delay n := by
  induction m, hnm using Nat.le_induction with
  | base => rfl
  | succ m _ ih => rw [delay_succ, ih, Rule.double, if_neg hn.not_gt]

theorem delay_le_of_le (hn : r.max ≤ r.delay n) (m : ℕ) : r.delay m ≤ r.delay n := by
  rcases le_total n m with hnm | hmn
  · exact (delay_of_le hn hnm).le
  · exact delay_mono r hmn

/-- every delay is that of a number of failures -/
theorem Rule.Follows.exists_delay (h : r.Follows log) {d : ℕ} (hd : some d ∈ log) : ∃ n, d = r.delay n := by
  induction log with
  | nil => cases hd
  | cons a log ih =>
    cases a with
    | none => exact ih h (by simpa using hd)
    | some d' =>
      rcases List.mem_cons.1 hd with heq | hd
      · exact ⟨_, (Option.some.inj heq).trans h.1⟩
      · exact ih h.2 hd

theorem Rule.Follows.rising (h : r.Follows log) : Rising log := by
  induction log with
  | nil => exact .nil
  | cons later log ih =>
    have hlog : r.Follows log := by
      cases later with
      | none => exact h
      | some d => exact h.2
    refine (ih hlog).cons fun earlier hearlier d' hd' d hd => ?_
    -- two failures in a row: the streak is one longer after the second one
    obtain rfl := hd'
    obtain rfl := hd
    obtain ⟨log, rfl⟩ := List.head?_eq_some_iff.1 hearlier
    rw [h.1, hlog.1]
    exact delay_mono r (Nat.le_succ _)

/-- **The limit.** When the limit is that of n failures, the delays of a log are within it exactly when no more than
n failures follow one another. -/
theorem Rule.Follows.atMost_iff (h : r.Follows log) (hn : ∀ m, r.delay m ≤ r.max ↔ m < n) :
    (∀ d, some d ∈ log → d ≤ r.max) ↔ r.Within n (outcomes log) := by
  induction log with
  | nil => simp [Rule.Within, Rule.streak, outcomes]
  | cons a log ih =>
    have hcons : r.Within n (outcomes (a :: log)) ↔ r.streak (outcomes (a :: log)) ≤ n ∧ r.Within n (outcomes log) := by
      simp [Rule.Within, List.suffix_cons_iff, outcomes]
    cases a with
    | none =>
      have hstreak : r.Within n (outcomes log) → r.streak (outcomes (none :: log)) ≤ n := by
        intro hlog
        change (if r.resets then 0 else r.streak (outcomes log)) ≤ n
        split_ifs
        · exact Nat.zero_le n
        · exact hlog _ List.suffix_rfl
      rw [hcons, and_iff_right_of_imp hstreak, ← ih h]
      simp
    | some d =>
      have hstreak : r.streak (outcomes (some d :: log)) = r.streak (outcomes log) + 1 := rfl
      rw [hcons, ← ih h.2, hstreak, Nat.succ_le_iff, ← hn, ← h.1]
      simp

end LuluExt.Backoff
