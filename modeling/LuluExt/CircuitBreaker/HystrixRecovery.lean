/-
Recovery of the hystrix breaker.

The package promises that after the sleep window a trial is admitted and that a successful trial closes the breaker.
`Recovers b` states it for one breaker: in Open, every `Allow` past the sleep window returns nil; and from `b`, at
whatever time, some finite list of `Execute` calls whose functions succeed ends in Closed.

The Open case of `Allow` sets `halfOpenIn` and falls through into the HalfOpen case, which finds it set and rejects. So
`Allow` never admits out of Open, and it leaves the trial slot taken by nobody (`loseSlot`).
- `stuck_run`: Open, or HalfOpen with the slot taken, stays so under every list of `Execute` calls.
-/
import LuluExt.CircuitBreaker.Hystrix

namespace LuluExt.Hystrix

open LuluExt.Run LuluExt.CircuitBreaker

structure ExecCall where
  allowNow : ℕ
  markNow : ℕ
  evalNow : ℕ
deriving DecidableEq, Repr

def ExecCall.times (c : ExecCall) : List ℕ := [c.allowNow, c.markNow, c.evalNow]

def succeed (b : Breaker) (c : ExecCall) : Breaker := (execute b .nil c.allowNow c.markNow c.evalNow).2

def Later (t : ℕ) (calls : List ExecCall) : Prop := (t :: calls.flatMap ExecCall.times).Pairwise (· ≤ ·)

def AdmitsTrial (b : Breaker) : Prop :=
  b.state = .open → ∀ now : ℕ, (now : ℤ) - b.openedAt ≥ b.cfg.sleepWindow → (allow b now).1 = none

def ClosesAfter (b : Breaker) (t : ℕ) : Prop := ∃ calls, Later t calls ∧ (run succeed b calls).state = .closed

def Recovers (b : Breaker) : Prop := AdmitsTrial b ∧ ∀ t, ClosesAfter b t

def Reachable (b : Breaker) : Prop := ∃ cfg now ops, b = run step (new cfg now) ops

variable {b : Breaker}

theorem Reachable.sound (h : Reachable b) : Sound b := by
  obtain ⟨cfg, now, ops, rfl⟩ := h
  exact run_inv step_sound (sound_new cfg now) ops

/-! ## No way back out of Open -/

/-- no request is admitted: Open, or HalfOpen with the trial slot taken -/
def Stuck (b : Breaker) : Prop := b.state = .open ∨ (b.state = .halfOpen ∧ b.halfOpenIn = true)

theorem allow_stuck (h : Stuck b) (now : ℕ) : (allow b now).1 = some errCircuitOpen ∧ Stuck (allow b now).2 := by
  rcases allow_cases b now with e | ⟨hs, -⟩ | ⟨hs, hi, -⟩ | ⟨-, e⟩
  · rw [e]; exact ⟨rfl, h⟩
  · rcases h with h | ⟨h, -⟩ <;> rw [h] at hs <;> cases hs
  · rcases h with h | ⟨-, h⟩
    · rw [h] at hs; cases hs
    · rw [h] at hi; cases hi
  · rw [e]; exact ⟨rfl, Or.inr ⟨rfl, rfl⟩⟩

theorem succeed_stuck (b : Breaker) (c : ExecCall) (h : Stuck b) : Stuck (succeed b c) := by
  obtain ⟨hrej, hst⟩ := allow_stuck h c.allowNow
  rw [succeed, execute_snd, hrej]
  exact hst

theorem stuck_run (h : Stuck b) (calls : List ExecCall) : (run succeed b calls).state ≠ .closed := by
  rcases run_inv succeed_stuck h calls with hs | ⟨hs, -⟩ <;> rw [hs] <;> decide

/-! ## The way back from HalfOpen -/

def Recoverable (b : Breaker) : Prop := b.state = .closed ∨ (b.state = .halfOpen ∧ b.halfOpenIn = false)

instance (b : Breaker) : Decidable (Recoverable b) := by unfold Recoverable; infer_instance

theorem stuck_of_not_recoverable (h : ¬ Recoverable b) : Stuck b := by
  simp only [Recoverable, not_or, not_and, Bool.not_eq_false] at h
  cases hs : b.state with
  | closed => exact absurd hs h.1
  | «open» => exact Or.inl hs
  | halfOpen => exact Or.inr ⟨hs, h.2 hs⟩

theorem later_now (t : ℕ) : Later t [⟨t, t, t⟩] := by simp [Later, ExecCall.times]

theorem succeed_free (h : Sound b) (hc : b.closed = false) (hs : b.state = .halfOpen)
    (hi : b.halfOpenIn = false) (c : ExecCall) : (succeed b c).state = .closed := by
  have ha : allow b c.allowNow = (none, grantSlot b) := by
    simp [allow, allowHalfOpen, hc, hs, hi, grantSlot]
  have hw : b.ring.Wf := h.wf (by simp [hs])
  rw [succeed, execute_snd, ha]
  rw [markSuccess_eq (b := grantSlot b) hw, if_pos (show (grantSlot b).state = .halfOpen from hs)]
  rfl

theorem recovers_iff_recoverable (h : Sound b) (hc : b.closed = false) : Recovers b ↔ Recoverable b := by
  constructor
  · intro hrec
    by_contra hn
    obtain ⟨calls, -, hcl⟩ := hrec.2 0
    exact stuck_run (stuck_of_not_recoverable hn) calls hcl
  · intro hrec
    rcases hrec with hs | ⟨hs, hi⟩
    · refine ⟨fun ho => ?_, fun t => ⟨[], by simp [Later], hs⟩⟩
      rw [hs] at ho; cases ho
    · refine ⟨fun ho => ?_, fun t => ⟨[⟨t, t, t⟩], later_now t, ?_⟩⟩
      · rw [hs] at ho; cases ho
      · exact succeed_free h hc hs hi _

/-! ## Runs -/

def TripsOn (b : Breaker) (f : HystrixBucket → HystrixBucket) (now : ℕ) : Prop :=
  b.state = .closed ∧ 0 < b.ring.bucketDuration ∧ OverThreshold b.cfg (b.ring.record .zero f now)

instance (b : Breaker) (f : HystrixBucket → HystrixBucket) (now : ℕ) : Decidable (TripsOn b f now) := by
  unfold TripsOn; infer_instance

def Trips (b : Breaker) : Op → Prop
  | .markSuccess now _ => TripsOn b addSuccess now
  | .markFailure now _ => TripsOn b addFailure now
  | .execute .nil _ now _ => TripsOn b addSuccess now
  | .execute (.err _) _ now _ => TripsOn b addFailure now
  | _ => False

instance (b : Breaker) : ∀ o, Decidable (Trips b o)
  | .markSuccess now _ => inferInstanceAs (Decidable (TripsOn b addSuccess now))
  | .markFailure now _ => inferInstanceAs (Decidable (TripsOn b addFailure now))
  | .execute .nil _ now _ => inferInstanceAs (Decidable (TripsOn b addSuccess now))
  | .execute (.err _) _ now _ => inferInstanceAs (Decidable (TripsOn b addFailure now))
  | .execute .panics _ _ _ => inferInstanceAs (Decidable False)
  | .allow _ => inferInstanceAs (Decidable False)
  | .state _ => inferInstanceAs (Decidable False)
  | .close => inferInstanceAs (Decidable False)

theorem evaluate_state (hs : b.state = .closed) (hd : 0 < b.ring.bucketDuration)
    (f : HystrixBucket → HystrixBucket) (now evalNow : ℕ) :
    (evaluateLocked { b with ring := b.ring.record .zero f now } evalNow).state =
      if TripsOn b f now then .open else .closed := by
  simp only [evaluateLocked, hs, ne_eq, not_true_eq_false, if_false, TripsOn, hd, true_and]
  split_ifs with h
  · rfl
  · rfl

theorem reported_state (h : Sound b) (hs : b.state = .closed) (ok : Bool) (now evalNow : ℕ) :
    (reported b ok now evalNow).state = if TripsOn b (addOutcome (!ok)) now then .open else .closed := by
  by_cases hd : b.ring.bucketDuration = 0
  · rw [reported_none hd, hs, if_neg (by simp [TripsOn, hd])]
  · have hd' := Nat.pos_of_ne_zero hd
    rw [reported_eq ⟨hd', h.buckets_pos⟩, if_neg (by simp [hs]), evaluate_state hs hd']

theorem allow_closedFlag (b : Breaker) (now : ℕ) : (allow b now).2.closed = b.closed := by
  rcases allow_cases b now with e | ⟨-, e⟩ | ⟨-, -, e⟩ | ⟨-, e⟩ <;> rw [e] <;> rfl

theorem evaluateLocked_closedFlag (b : Breaker) (now : ℕ) : (evaluateLocked b now).closed = b.closed := by
  unfold evaluateLocked; split_ifs <;> rfl

theorem reported_closedFlag (h : Sound b) (ok : Bool) (now evalNow : ℕ) :
    (reported b ok now evalNow).closed = b.closed := by
  by_cases hd : b.ring.bucketDuration = 0
  · rw [reported_none hd]
  · rw [reported_eq ⟨Nat.pos_of_ne_zero hd, h.buckets_pos⟩]
    split_ifs
    · rfl
    · rfl
    · rw [evaluateLocked_closedFlag]

theorem step_closedFlag (h : Sound b) (o : Op) : (step b o).closed = (b.closed || decide (o = .close)) := by
  have hreported (b : Breaker) (h : Sound b) (ok : Bool) (now evalNow : ℕ) :
      (reported b ok now evalNow).closed = (b.closed || false) := by
    rw [reported_closedFlag h, Bool.or_false]
  cases o with
  | allow now => simp [step, allow_closedFlag]
  | markSuccess now evalNow => exact hreported b h true now evalNow
  | markFailure now evalNow => exact hreported b h false now evalNow
  | execute fn allowNow markNow evalNow =>
    have ha := (quiet_allow b allowNow).sound h
    simp only [step, execute_snd, ← allow_closedFlag b allowNow]
    split
    · simp
    · simp
    · exact hreported _ ha false markNow evalNow
    · exact hreported _ ha true markNow evalNow
  | state now => simp only [step, pollState]; split_ifs <;> simp
  | close => simp [step, close]

theorem step_state (h : Sound b) (hc : b.closed = false) (hs : b.state = .closed) (o : Op) :
    (step b o).state = if Trips b o then .open else .closed := by
  have ha : ∀ now, allow b now = (none, b) := fun now => by simp [allow, hc, hs]
  cases o with
  | allow now => simp [step, ha, hs, Trips]
  | markSuccess now evalNow => exact reported_state h hs true now evalNow
  | markFailure now evalNow => exact reported_state h hs false now evalNow
  | execute fn allowNow markNow evalNow =>
    cases fn with
    | panics => simp [step, execute_snd, ha, hs, Trips]
    | err e =>
      simp only [step, execute_snd, ha]
      exact reported_state h hs false markNow evalNow
    | nil =>
      simp only [step, execute_snd, ha]
      exact reported_state h hs true markNow evalNow
  | state now => simp [step, pollState, hs, Trips]
  | close => simp [step, close, hs, Trips]

theorem recovers_always_iff (cfg : Config) (now : ℕ) (ops : List Op) :
    Always step (fun b => b.closed = false → Recovers b) (new cfg now) ops ↔
      Along step (fun b o => b.closed ∨ ¬ Trips b o) (new cfg now) ops := by
  refine always_iff_along_of_inv (I := fun b => Sound b ∧ (b.closed ∨ b.state = .closed)) ?_ ?_ ?_
    ⟨sound_new cfg now, Or.inr rfl⟩ ops
  · intro b hI hc
    obtain ⟨h, hb⟩ := hI
    exact (recovers_iff_recoverable h hc).2 (Or.inl (hb.resolve_left (by simp [hc])))
  · intro b o hI hC
    obtain ⟨h, hb⟩ := hI
    refine ⟨step_sound b o h, ?_⟩
    cases hc : b.closed with
    | true => left; rw [step_closedFlag h, hc]; rfl
    | false =>
      right
      have hs : b.state = .closed := hb.resolve_left (by simp [hc])
      have ht : ¬ Trips b o := hC.resolve_left (by simp [hc])
      rw [step_state h hc hs, if_neg ht]
  · intro b o hI hC hrec
    obtain ⟨h, hb⟩ := hI
    simp only [not_or, not_not, Bool.not_eq_true] at hC
    obtain ⟨hc, ht⟩ := hC
    have hs : b.state = .closed := hb.resolve_left (by simp [hc])
    have hopen : (step b o).state = .open := by rw [step_state h hc hs, if_pos ht]
    have hno : o ≠ .close := by
      intro ho
      subst ho
      exact ht
    have hc' : (step b o).closed = false := by rw [step_closedFlag h, hc]; simpa using hno
    have := (recovers_iff_recoverable (step_sound b o h) hc').1 (hrec hc')
    simp [Recoverable, hopen] at this

/-- **When the breaker recovers.** Unless it was closed, it can be brought back to Closed by successful `Execute` calls
exactly when it is Closed, or HalfOpen with the trial slot free; and all states of a run recover exactly when no mark of
the run trips the breaker. -/
theorem recovers_iff (cfg : Config) (now : ℕ) (ops : List Op) :
    ((run step (new cfg now) ops).closed = false →
      (Recovers (run step (new cfg now) ops) ↔
        (run step (new cfg now) ops).state = .closed ∨
          ((run step (new cfg now) ops).state = .halfOpen ∧ (run step (new cfg now) ops).halfOpenIn = false))) ∧
    (Always step (fun b => b.closed = false → Recovers b) (new cfg now) ops ↔
      Along step (fun b o => b.closed = true ∨ ¬ Trips b o) (new cfg now) ops) := by
  have hr : Reachable (run step (new cfg now) ops) := ⟨cfg, now, ops, rfl⟩
  exact ⟨fun hc => recovers_iff_recoverable hr.sound hc, recovers_always_iff cfg now ops⟩

def tripped : Breaker := run step (new defaultConfig 0) (List.replicate 20 (.markFailure 0 0))

/-- the same breaker, polled by `State` at the end of the sleep window -/
def polledCalls : List Op := List.replicate 20 (.markFailure 0 0) ++ [.state 5000000000]

theorem polled_recovers : Recovers (run step (new defaultConfig 0) polledCalls) :=
  ((recovers_iff defaultConfig 0 polledCalls).1 (by decide +kernel)).2
    (Or.inr ⟨by decide +kernel, by decide +kernel⟩)

/-- **Not without `State`.** At the end of the sleep window `Allow` rejects the trial, and from then on every `Execute`
call is rejected, whatever its time. -/
theorem tripped_never_recovers :
    Reachable tripped ∧ tripped.state = .open ∧ tripped.closed = false ∧
    (5000000000 : ℤ) - tripped.openedAt ≥ tripped.cfg.sleepWindow ∧
    (allow tripped 5000000000).1 = some errCircuitOpen ∧
    (∀ calls, (run succeed tripped calls).state ≠ .closed) ∧
    ∀ calls now, (allow (run succeed tripped calls) now).1 = some errCircuitOpen := by
  have hopen : tripped.state = .open := by decide +kernel
  have hstuck : Stuck tripped := Or.inl hopen
  refine ⟨⟨defaultConfig, 0, _, rfl⟩, hopen, by decide +kernel, by decide +kernel, by decide +kernel,
    stuck_run hstuck, fun calls now => ?_⟩
  exact (allow_stuck (run_inv succeed_stuck hstuck calls) now).1

end LuluExt.Hystrix
