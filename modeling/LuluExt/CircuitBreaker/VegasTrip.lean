/-
When the vegas breaker trips, and that it stays tripped.

Samples are recorded for admitted requests only, and only a sample moves the breaker out of Open.
-/
import LuluExt.CircuitBreaker.Vegas

namespace LuluExt.Vegas

open CircuitBreaker Run

/-! ## Locked out -/

/-- what a client of the interface does: a call that takes `elapsed`, or a look at the state -/
inductive Call where
  | execute (fn : FnResult) (elapsed : ℤ)
  | state

def Call.op : Call → Op
  | .execute fn elapsed => .execute fn elapsed
  | .state => .state

def serve (b : Breaker) (c : Call) : Breaker := step b c.op

def Recovers (b : Breaker) : Prop :=
  ∃ calls : List (FnResult × ℤ), allow (run (fun b c => (execute b c.1 c.2).2) b calls) = none

/-- the call is admitted and its sample, recorded by `updateRTTLocked`, degrades the breaker -/
def Trips (b : Breaker) : Call → Prop
  | .execute .nil elapsed => Degraded (updateRTTLocked b elapsed)
  | .execute (.err _) _ => Degraded (updateRTTLocked b b.cfg.maxRTT)
  | .execute .panics _ => False
  | .state => False

variable {b : Breaker}

theorem allow_eq_none_iff (hc : b.closed = false) : allow b = none ↔ b.state ≠ .open := by
  simp [allow, hc]

theorem execute_open (hs : b.state = .open) (fn : FnResult) (elapsed : ℤ) : (execute b fn elapsed).2 = b := by
  have ha : allow b = some errCircuitOpen := by simp [allow, hs]
  simp [execute, ha]

theorem recovers_iff_state (hc : b.closed = false) : Recovers b ↔ b.state ≠ .open := by
  constructor
  · intro hrec hopen
    obtain ⟨calls, ha⟩ := hrec
    have hsame : run (fun b c => (execute b c.1 c.2).2) b calls = b := by
      refine run_inv (I := fun b' => b' = b) ?_ rfl calls
      intro b' call hb
      rw [hb]
      exact execute_open hopen call.1 call.2
    rw [hsame] at ha
    exact (allow_eq_none_iff hc).1 ha hopen
  · intro hs
    exact ⟨[], (allow_eq_none_iff hc).2 hs⟩

theorem sample_state (hs : b.state = .closed) (rtt : ℤ) :
    (evaluateLocked (updateRTTLocked b rtt)).state = if Degraded (updateRTTLocked b rtt) then .open else .closed := by
  rw [evaluateLocked_closed (by simpa using hs)]
  split_ifs
  · rfl
  · simpa using hs

theorem markFailure_closed (hs : b.state = .closed) :
    markFailure b = evaluateLocked (updateRTTLocked b b.cfg.maxRTT) := by
  simp [markFailure, hs]

theorem recordLatency_closed (hs : b.state = .closed) (rtt : ℤ) :
    recordLatency b rtt = evaluateLocked (updateRTTLocked b rtt) := by
  simp [recordLatency, hs]

instance (b : Breaker) : ∀ c, Decidable (Trips b c)
  | .execute .nil elapsed => inferInstanceAs (Decidable (Degraded (updateRTTLocked b elapsed)))
  | .execute (.err _) _ => inferInstanceAs (Decidable (Degraded (updateRTTLocked b b.cfg.maxRTT)))
  | .execute .panics _ => inferInstanceAs (Decidable False)
  | .state => inferInstanceAs (Decidable False)

theorem serve_state (hc : b.closed = false) (hs : b.state = .closed) (c : Call) :
    (serve b c).state = if Trips b c then .open else .closed := by
  have ha : allow b = none := (allow_eq_none_iff hc).2 (by simp [hs])
  cases c with
  | state => simpa [serve, Call.op, step, Trips] using hs
  | execute fn elapsed =>
    cases fn with
    | nil =>
      simp only [serve, step, execute, ha, recordLatency_closed hs]
      exact sample_state hs elapsed
    | err e =>
      simp only [serve, step, execute, ha, markFailure_closed hs]
      exact sample_state hs b.cfg.maxRTT
    | panics => simpa [serve, Call.op, step, execute, ha, Trips] using hs

theorem evaluateLocked_closedFlag (b : Breaker) : (evaluateLocked b).closed = b.closed := by
  obtain ⟨s, e⟩ := evaluateLocked_only_state b
  rw [e]

theorem Records.closedFlag {b' : Breaker} {o : Op} {x : Option ℤ} (hr : Records b o x b') (ho : o ≠ .close) :
    b'.closed = b.closed := by
  cases hr with
  | quiet hs => rfl
  | closes hclose => exact absurd hclose ho
  | sample hs rtt => rw [evaluateLocked_closedFlag, updateRTTLocked_closed]

theorem serve_closedFlag (b : Breaker) (c : Call) : (serve b c).closed = b.closed :=
  (records_step b c.op).closedFlag (by cases c <;> exact nofun)

/-- **When a client gets through again.** After any `Execute` and `State` calls the breaker admits a request after some
further `Execute` calls exactly when it is not Open; and all states of the run do exactly when no call of it trips the
breaker. -/
theorem recovers_iff_not_tripped (cfg : Config) (calls : List Call) :
    (Recovers (run serve (new cfg) calls) ↔ (run serve (new cfg) calls).state ≠ .open) ∧
      (Always serve Recovers (new cfg) calls ↔ Along serve (fun b c => ¬ Trips b c) (new cfg) calls) := by
  have hflag : (run serve (new cfg) calls).closed = false := by
    refine run_inv (I := fun b : Breaker => b.closed = false) ?_ rfl calls
    intro b c hb
    rw [serve_closedFlag, hb]
  refine ⟨recovers_iff_state hflag, ?_⟩
  refine always_iff_along_of_inv (I := fun b => b.closed = false ∧ b.state = .closed) ?_ ?_ ?_ ⟨rfl, rfl⟩ calls
  · intro b hb
    exact (recovers_iff_state hb.1).2 (by simp [hb.2])
  · intro b c hb hno
    exact ⟨(serve_closedFlag b c).trans hb.1, by rw [serve_state hb.1 hb.2, if_neg hno]⟩
  · intro b c hb htrips hrec
    rw [not_not] at htrips
    have hopen : (serve b c).state = .open := by rw [serve_state hb.1 hb.2, if_pos htrips]
    exact (recovers_iff_state ((serve_closedFlag b c).trans hb.1)).1 hrec hopen

def lockoutCalls : List Call :=
  List.replicate 9 (.execute .nil 1000000) ++ [.execute (.err ⟨"unavailable"⟩) 1000000]

/-- **Locked out.** With the default options one error after nine fast calls opens the breaker, and whatever a client
executes then, it is rejected. -/
theorem locked_out :
    (run serve (new defaultConfig) lockoutCalls).state = .open ∧
      ∀ calls : List (FnResult × ℤ),
        allow (run (fun b c => (execute b c.1 c.2).2) (run serve (new defaultConfig) lockoutCalls) calls) =
          some errCircuitOpen := by
  have hopen : (run serve (new defaultConfig) lockoutCalls).state = .open := by decide +kernel
  refine ⟨hopen, fun calls => ?_⟩
  have hstuck : (run (fun b c => (execute b c.1 c.2).2) (run serve (new defaultConfig) lockoutCalls) calls).state =
      .open := by
    refine run_inv (I := fun b : Breaker => b.state = .open) ?_ hopen calls
    intro b call hb
    rw [execute_open hb]
    exact hb
  simp [allow, hstuck]

/-! ## Tripping on failures -/

def failures (b : Breaker) (n : ℕ) : Breaker := markFailure^[n] b

theorem failures_succ (b : Breaker) (n : ℕ) : failures b (n + 1) = markFailure (failures b n) :=
  Function.iterate_succ_apply' _ _ _

def failureLimit (b : Breaker) : ℤ := max b.currentRTT (b.cfg.maxRTT - 7)

theorem update_maxRTT (h : Sound b) (hb : b.baseRTT ≠ 0) :
    updateRTTLocked b b.cfg.maxRTT =
      { b with
        sampleCount := b.sampleCount + 1
        currentRTT := Smoothing.next 8 b.currentRTT b.cfg.maxRTT } := by
  rcases updateRTTLocked_cases h b.cfg.maxRTT with ⟨hout, -⟩ | ⟨-, -, hzero, -⟩ | ⟨-, -, -, e⟩
  · have := b.cfg.minRTT_le
    rcases hout with hlo | hhi
    · exact absurd hlo (not_lt.2 this)
    · exact absurd hhi (lt_irrefl _)
  · exact absurd hzero hb
  · cases h with
    | unset hbase _ => exact absurd hbase hb
    | sampled hbase _ => rw [e, min_eq_left hbase.2]

theorem inflation_gt_iff (hb : 0 < b.baseRTT) :
    inflation b > b.cfg.alpha ↔ b.cfg.alpha * b.baseRTT < b.currentRTT - b.baseRTT := by
  have hpos : (0 : ℚ) < b.baseRTT := Int.cast_pos.2 hb
  unfold inflation
  rw [gt_iff_lt, lt_div_iff₀ hpos]
  push_cast
  rfl

/-- the baseline is set, and the limit of the average is more than alpha above it -/
def EventuallyDegraded (b : Breaker) : Prop :=
  b.baseRTT ≠ 0 ∧ b.cfg.alpha * b.baseRTT < failureLimit b - b.baseRTT

theorem Sound.base_pos (h : Sound b) (hb : b.baseRTT ≠ 0) : 0 < b.baseRTT := by
  cases h with
  | unset hbase _ => exact absurd hbase hb
  | sampled hbase _ => exact b.cfg.minRTT_pos.trans_le hbase.1

theorem Sound.current_le (h : Sound b) : b.currentRTT ≤ b.cfg.maxRTT := by
  cases h with
  | unset _ hcurrent =>
    rw [hcurrent]
    exact b.cfg.minRTT_pos.le.trans b.cfg.minRTT_le
  | sampled _ hcurrent => exact hcurrent.2

theorem Sound.failures (h : Sound b) (n : ℕ) : Sound (failures b n) := by
  induction n with
  | zero => exact h
  | succ n ih =>
    rw [failures_succ]
    exact ih.step .markFailure

theorem degraded_update (h : Sound b) (hb : b.baseRTT ≠ 0)
    (hd : Degraded (updateRTTLocked b b.cfg.maxRTT)) : EventuallyDegraded b := by
  have hinfl := hd.2.2
  rw [update_maxRTT h hb, inflation_gt_iff (by exact h.base_pos hb)] at hinfl
  have hle : Smoothing.next 8 b.currentRTT b.cfg.maxRTT ≤ failureLimit b :=
    Smoothing.next_le_limit (by decide) h.current_le
  have hcast : (Smoothing.next 8 b.currentRTT b.cfg.maxRTT : ℚ) ≤ failureLimit b := Int.cast_le.2 hle
  exact ⟨hb, by linarith⟩

theorem markFailure_calm (h : Sound b) (hs : b.state = .closed) (hb : b.baseRTT ≠ 0)
    (hd : ¬ Degraded (updateRTTLocked b b.cfg.maxRTT)) :
    markFailure b =
      { b with
        sampleCount := b.sampleCount + 1
        currentRTT := Smoothing.next 8 b.currentRTT b.cfg.maxRTT } := by
  rw [markFailure_closed hs, evaluateLocked_closed (by simpa using hs), if_neg hd, update_maxRTT h hb]

theorem not_eventuallyDegraded_step (h : Sound b) (hs : b.state = .closed) (hb : b.baseRTT ≠ 0)
    (hno : ¬ EventuallyDegraded b) :
    (markFailure b).state = .closed ∧ (markFailure b).baseRTT ≠ 0 ∧ ¬ EventuallyDegraded (markFailure b) := by
  have hlimit : max (Smoothing.next 8 b.currentRTT b.cfg.maxRTT) (b.cfg.maxRTT - 7) = failureLimit b :=
    Smoothing.limit_next (by decide) h.current_le
  rw [markFailure_calm h hs hb (fun hd => hno (degraded_update h hb hd))]
  refine ⟨hs, hb, ?_⟩
  simpa only [EventuallyDegraded, failureLimit, hlimit] using hno

theorem failures_closed (h : Sound b) (hs : b.state = .closed) (hb : b.baseRTT ≠ 0)
    (hno : ¬ EventuallyDegraded b) (n : ℕ) : (failures b n).state = .closed := by
  have hall : (failures b n).state = .closed ∧ (failures b n).baseRTT ≠ 0 ∧ ¬ EventuallyDegraded (failures b n) := by
    induction n with
    | zero => exact ⟨hs, hb, hno⟩
    | succ n ih =>
      rw [failures_succ]
      exact not_eventuallyDegraded_step (h.failures n) ih.1 ih.2.1 ih.2.2
  exact hall.1

/-- the first sample of all sets the baseline to maxRTT, and nothing is ever above that -/
theorem first_failure (h : Sound b) (hs : b.state = .closed) (hb : b.baseRTT = 0) :
    (markFailure b).state = .closed ∧ (markFailure b).baseRTT ≠ 0 ∧ ¬ EventuallyDegraded (markFailure b) := by
  have hmax : 0 < b.cfg.maxRTT := b.cfg.minRTT_pos.trans_le b.cfg.minRTT_le
  have halpha := b.cfg.alpha_pos
  have hupdate : updateRTTLocked b b.cfg.maxRTT =
      { b with sampleCount := b.sampleCount + 1, currentRTT := b.cfg.maxRTT, baseRTT := b.cfg.maxRTT } := by
    rcases updateRTTLocked_cases h b.cfg.maxRTT with ⟨hout, -⟩ | ⟨-, -, -, e⟩ | ⟨-, -, hset, -⟩
    · have := b.cfg.minRTT_le
      omega
    · exact e
    · exact absurd hb hset
  have hcalm : ¬ Degraded (updateRTTLocked b b.cfg.maxRTT) := by
    intro hd
    have hinfl := hd.2.2
    rw [hupdate] at hinfl
    simp only [inflation, sub_self, Int.cast_zero, zero_div] at hinfl
    exact lt_asymm halpha hinfl
  rw [markFailure_closed hs, evaluateLocked_closed (by simpa using hs), if_neg hcalm, hupdate]
  refine ⟨hs, hmax.ne', fun hdeg => ?_⟩
  have hlimit : max b.cfg.maxRTT (b.cfg.maxRTT - 7) = b.cfg.maxRTT := max_eq_left (by omega)
  have hlt := hdeg.2
  simp only [failureLimit, hlimit, sub_self] at hlt
  exact lt_asymm hlt (by positivity)

theorem failures_closed_unset (h : Sound b) (hs : b.state = .closed) (hb : b.baseRTT = 0) (n : ℕ) :
    (failures b n).state = .closed := by
  cases n with
  | zero => exact hs
  | succ n =>
    obtain ⟨hs1, hb1, hno1⟩ := first_failure h hs hb
    exact failures_closed (h.step .markFailure) hs1 hb1 hno1 n

theorem failures_eq (h : Sound b) (hs : b.state = .closed) (hb : b.baseRTT ≠ 0)
    (hnever : ∀ n, (failures b n).state ≠ .open) (n : ℕ) :
    failures b n =
      { b with
        sampleCount := b.sampleCount + n
        currentRTT := (fun y => Smoothing.next 8 y b.cfg.maxRTT)^[n] b.currentRTT } := by
  induction n with
  | zero => rfl
  | succ n ih =>
    have hsound := h.failures n
    have hstate : (failures b n).state = .closed := by rw [ih]; exact hs
    have hbase : (failures b n).baseRTT ≠ 0 := by rw [ih]; exact hb
    have hcalm : ¬ Degraded (updateRTTLocked (failures b n) (failures b n).cfg.maxRTT) := by
      intro hd
      apply hnever (n + 1)
      rw [failures_succ, markFailure_closed hstate, sample_state hstate, if_pos hd]
    rw [failures_succ, markFailure_calm hsound hstate hbase hcalm, ih]
    simp only [Function.iterate_succ_apply', Nat.add_assoc]

theorem failures_open (h : Sound b) (hs : b.state = .closed) (hdeg : EventuallyDegraded b) :
    ∃ n, (failures b n).state = .open := by
  by_contra hnone
  have hnever : ∀ n, (failures b n).state ≠ .open := fun n hn => hnone ⟨n, hn⟩
  obtain ⟨N, hN⟩ := Smoothing.reaches_limit (k := 8) (by decide) h.current_le
  -- by then the average is at its limit and the warm-up is over
  have hlast := failures_eq h hs hdeg.1 hnever (N + b.cfg.warmupSamples)
  have hlimit := hN (N + b.cfg.warmupSamples + 1) (by omega)
  have hstate : (failures b (N + b.cfg.warmupSamples)).state = .closed := by rw [hlast]; exact hs
  have hbase : (failures b (N + b.cfg.warmupSamples)).baseRTT ≠ 0 := by rw [hlast]; exact hdeg.1
  have hupdate := update_maxRTT (h.failures (N + b.cfg.warmupSamples)) hbase
  apply hnever (N + b.cfg.warmupSamples + 1)
  rw [failures_succ, markFailure_closed hstate, sample_state hstate, if_pos]
  rw [hupdate, hlast]
  refine ⟨?_, hdeg.1, ?_⟩
  · simp only
    omega
  · rw [inflation_gt_iff (by exact h.base_pos hdeg.1)]
    rw [Function.iterate_succ_apply'] at hlimit
    simp only [hlimit]
    exact hdeg.2

/-- **When failures trip the breaker.** In Closed some number of `MarkFailure` calls leads to Open if and only if a
sample has set the baseline and the limit of the smoothed average, max currentRTT (maxRTT - 7), is more than alpha *
baseRTT above it. -/
theorem trips_iff (b : Breaker) (hr : Reachable b) (hs : b.state = .closed) :
    (∃ n, (failures b n).state = .open) ↔
      b.baseRTT ≠ 0 ∧ b.cfg.alpha * b.baseRTT < ((max b.currentRTT (b.cfg.maxRTT - 7) : ℤ) : ℚ) - b.baseRTT := by
  have h := hr.sound
  constructor
  · intro htrips
    obtain ⟨n, hn⟩ := htrips
    by_contra hno
    suffices hclosed : (failures b n).state = .closed by
      rw [hn] at hclosed
      cases hclosed
    by_cases hb : b.baseRTT = 0
    · exact failures_closed_unset h hs hb n
    · exact failures_closed h hs hb hno n
  · intro hdeg
    exact failures_open h hs hdeg

def warm : Breaker := run step (new defaultConfig) [.recordLatency 1000000]

theorem warm_trips : ∃ n, (failures warm n).state = .open :=
  (trips_iff warm ⟨defaultConfig, _, rfl⟩ (by decide +kernel)).2 (by decide +kernel)

/-- **Failing from the start.** With the default options no number of failures opens a new breaker. -/
theorem failing_never_trips :
    Reachable (new defaultConfig) ∧ (new defaultConfig).state = .closed ∧
      ∀ n, (failures (new defaultConfig) n).state = .closed :=
  ⟨⟨defaultConfig, [], rfl⟩, rfl, failures_closed_unset (.unset rfl rfl) rfl rfl⟩

end LuluExt.Vegas
