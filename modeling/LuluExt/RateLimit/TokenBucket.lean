/-
The token-bucket limiter.

`takeLocked` refills the bucket up to the clock, then either takes a token or returns the time until the missing
fraction is there, truncated to whole nanoseconds. `Allow` and `Wait` look only at that wait, so an attempt with a wait
of zero is admitted whether or not it took a token. A rate over nanoseconds is rate / 10^9; all arithmetic is rational.

- `pays_iff_covered`: an attempt takes a whole token for each admission exactly when it is `Covered`.
-/
import LuluExt.Lib.Run
import LuluExt.Lib.Budget
import LuluExt.RateLimit.Basic

namespace LuluExt.TokenBucket

open RateLimit Run

structure Limiter where
  /-- tokens per second -/
  rate : ℚ
  burst : ℚ
  tokens : ℚ
  last : ℕ
  closed : Bool
  rate_pos : 0 < rate
  burst_pos : 0 < burst

def errInvalidConfig : GoError := ⟨"tokenbucket: rate and burst must be positive"⟩

def new (rate burst : ℚ) (now : ℕ) : Except GoError Limiter :=
  if h : rate ≤ 0 ∨ burst ≤ 0 then .error errInvalidConfig
  else
    have hpos : 0 < rate ∧ 0 < burst := by simpa using h
    .ok ⟨rate, burst, burst, now, false, hpos.1, hpos.2⟩

def elapsed (last now : ℕ) : ℚ := ((now : ℤ) - last : ℤ) / 10 ^ 9

def replenish (l : Limiter) (now : ℕ) : Limiter :=
  if elapsed l.last now > 0 then
    { l with tokens := min l.burst (l.tokens + elapsed l.last now * l.rate), last := now }
  else l

/-- nanoseconds until `n` tokens are there, before the conversion to a duration -/
def delay (l : Limiter) (n : ℚ) : ℚ := (n - l.tokens) / l.rate * 10 ^ 9

def takeLocked (plat : Go.Platform) (l : Limiter) (n : ℚ) (now : ℕ) : (ℕ × ℤ) × Limiter :=
  let l := replenish l now
  if l.tokens ≥ n then ((now, 0), { l with tokens := l.tokens - n }) else ((now, plat.int64 (delay l n)), l)

def allow (plat : Go.Platform) (l : Limiter) (now : ℕ) : (Bool × Option GoError) × Limiter :=
  if l.closed then ((false, some errLimited), l)
  else
    let ((_, wait), l) := takeLocked plat l 1 now
    if wait > 0 then ((false, some errLimited), l) else ((true, none), l)

inductive Round where
  | limited
  | granted
  /-- sleeps for the duration unless woken -/
  | blocked (wait : ℤ)
deriving DecidableEq, Repr

def waitRound (plat : Go.Platform) (l : Limiter) (now : ℕ) : Round × Limiter :=
  if l.closed then (.limited, l)
  else
    let ((_, wait), l) := takeLocked plat l 1 now
    if wait ≤ 0 then (.granted, l) else (.blocked wait, l)

/-- what ends the sleep of a round: the context, or a timer or notification read at `now` -/
inductive Wake where
  | ctxDone (e : GoError)
  | retry (now : ℕ)

/-- `Wait` alone on the limiter; `none` while it still sleeps -/
def wait (plat : Go.Platform) (l : Limiter) (now : ℕ) (wakes : List Wake) : Option (Option GoError) × Limiter :=
  match waitRound plat l now, wakes with
  | (.limited, l), _ => (some (some errLimited), l)
  | (.granted, l), _ => (some none, l)
  | (.blocked _, l), [] => (none, l)
  | (.blocked _, l), .ctxDone e :: _ => (some (some e), l)
  | (.blocked _, l), .retry now' :: wakes => wait plat l now' wakes

def close (l : Limiter) : Limiter := { l with closed := true }

/-! ## One attempt -/

@[simp] theorem replenish_rate (l : Limiter) (now : ℕ) : (replenish l now).rate = l.rate := by
  unfold replenish
  split_ifs <;> rfl

@[simp] theorem replenish_burst (l : Limiter) (now : ℕ) : (replenish l now).burst = l.burst := by
  unfold replenish
  split_ifs <;> rfl

/-- the tokens there are at `now`: rate times the time that passed is gained, up to the burst -/
def level (l : Limiter) (now : ℕ) : ℚ := min l.burst (l.tokens + l.rate / 10 ^ 9 * (now - l.last))

variable {now : ℕ}

theorem replenish_spec {l : Limiter} (ht : l.last ≤ now) (hb : l.tokens ≤ l.burst) :
    (replenish l now).last = now ∧ (replenish l now).tokens = level l now := by
  have helapsed : elapsed l.last now * l.rate = l.rate / 10 ^ 9 * (now - l.last) := by
    simp only [elapsed, Int.cast_sub, Int.cast_natCast]
    ring
  unfold replenish
  by_cases hpos : elapsed l.last now > 0
  · rw [if_pos hpos, level, ← helapsed]
    exact ⟨rfl, rfl⟩
  · have heq : l.last = now := by
      refine le_antisymm ht (not_lt.1 fun hlt => hpos ?_)
      simp only [elapsed, Int.cast_sub]
      have : (l.last : ℚ) < now := Nat.cast_lt.2 hlt
      positivity
    rw [if_neg hpos, heq]
    exact ⟨rfl, by simp [level, heq, hb]⟩

variable (plat : Go.Platform)

theorem takeLocked_cases (l : Limiter) (now : ℕ) : (1 ≤ (replenish l now).tokens ∧
      takeLocked plat l 1 now = ((now, 0), { replenish l now with tokens := (replenish l now).tokens - 1 })) ∨
    ((replenish l now).tokens < 1 ∧
      takeLocked plat l 1 now = ((now, plat.int64 (delay (replenish l now) 1)), replenish l now)) := by
  by_cases h : 1 ≤ (replenish l now).tokens
  · exact .inl ⟨h, if_pos h⟩
  · exact .inr ⟨not_le.1 h, if_neg h⟩

/-- at `now` a whole token is there, or the missing fraction takes at least a nanosecond to refill (and, where the
nanoseconds do not fit a duration, the platform converts them to a positive one) -/
def CoveredAt (plat : Go.Platform) (l : Limiter) (now : ℕ) : Prop :=
  1 ≤ level l now ∨
    l.rate ≤ (1 - level l now) * 10 ^ 9 ∧
      (2 ^ 63 * l.rate ≤ (1 - level l now) * 10 ^ 9 → 0 < plat.outOfRange ((1 - level l now) / l.rate * 10 ^ 9))

instance (plat : Go.Platform) (l : Limiter) (now : ℕ) : Decidable (CoveredAt plat l now) := by
  unfold CoveredAt; infer_instance

theorem le_delay_iff (l : Limiter) (x n : ℚ) : x ≤ delay l n ↔ x * l.rate ≤ (n - l.tokens) * 10 ^ 9 := by
  unfold delay
  rw [div_mul_eq_mul_div, le_div_iff₀ l.rate_pos]

theorem covered_iff {l : Limiter} (ht : l.last ≤ now) (hb : l.tokens ≤ l.burst) :
    CoveredAt plat l now ↔
      ((takeLocked plat l 1 now).1.2 ≤ 0 → (takeLocked plat l 1 now).2.tokens = level l now - 1) := by
  have htokens : (replenish l now).tokens = level l now := (replenish_spec ht hb).2
  rcases takeLocked_cases plat l now with ⟨hfull, htake⟩ | ⟨hless, htake⟩
  · rw [htake]
    rw [htokens] at hfull
    exact ⟨fun _ _ => by rw [← htokens], fun _ => .inl hfull⟩
  · have hdelay : 0 ≤ delay (replenish l now) 1 := by
      rw [le_delay_iff]
      linarith
    have hone : 1 ≤ delay (replenish l now) 1 ↔ l.rate ≤ (1 - level l now) * 10 ^ 9 := by
      rw [le_delay_iff, one_mul, replenish_rate, htokens]
    have hbig : 2 ^ 63 ≤ delay (replenish l now) 1 ↔ 2 ^ 63 * l.rate ≤ (1 - level l now) * 10 ^ 9 := by
      rw [le_delay_iff, replenish_rate, htokens]
    have hvalue : delay (replenish l now) 1 = (1 - level l now) / l.rate * 10 ^ 9 := by
      rw [delay, replenish_rate, htokens]
    have hpos := plat.int64_pos_iff hdelay
    rw [hone, hbig, hvalue] at hpos
    -- nothing was taken, so the attempt must not be admitted
    have htaken : level l now ≠ level l now - 1 := by linarith
    rw [htokens] at hless
    rw [htake, htokens]
    simp only [htaken, imp_false, not_le, hvalue, hpos, CoveredAt, not_le.2 hless, false_or]

/-! ## Traffic -/

structure Traffic where
  limiter : Limiter
  admitted : List ℕ

inductive Op where
  | allow (now : ℕ)
  /-- a round of some caller's `Wait` -/
  | wait (now : ℕ)
  | close

def step (plat : Go.Platform) (t : Traffic) : Op → Traffic
  | .allow now =>
    let (r, l) := allow plat t.limiter now
    ⟨l, if r.1 then t.admitted ++ [now] else t.admitted⟩
  | .wait now =>
    let (r, l) := waitRound plat t.limiter now
    ⟨l, if r = .granted then t.admitted ++ [now] else t.admitted⟩
  | .close => { t with limiter := close t.limiter }

def attempt (plat : Go.Platform) (t : Traffic) (now : ℕ) : Traffic :=
  if t.limiter.closed then t
  else
    ⟨(takeLocked plat t.limiter 1 now).2,
      if (takeLocked plat t.limiter 1 now).1.2 ≤ 0 then t.admitted ++ [now] else t.admitted⟩

theorem step_allow (t : Traffic) (now : ℕ) : step plat t (.allow now) = attempt plat t now := by
  by_cases hc : t.limiter.closed
  · simp [step, allow, attempt, hc]
  by_cases hw : (takeLocked plat t.limiter 1 now).1.2 ≤ 0
  · simp [step, allow, attempt, hc, not_lt.2 hw]
  · simp [step, allow, attempt, hc, not_le.1 hw]

theorem step_wait (t : Traffic) (now : ℕ) : step plat t (.wait now) = attempt plat t now := by
  by_cases hc : t.limiter.closed
  · simp [step, waitRound, attempt, hc]
  by_cases hw : (takeLocked plat t.limiter 1 now).1.2 ≤ 0
  · simp [step, waitRound, attempt, hc, hw]
  · simp [step, waitRound, attempt, hc, hw]

/-! ## The rate bound -/

/-- clock readings do not decrease; an attempt sets `last` to its reading -/
def Timely (t : Traffic) : Op → Prop
  | .allow now => t.limiter.last ≤ now
  | .wait now => t.limiter.last ≤ now
  | .close => True

instance (t : Traffic) : ∀ o, Decidable (Timely t o)
  | .allow now => inferInstanceAs (Decidable (_ ≤ now))
  | .wait now => inferInstanceAs (Decidable (_ ≤ now))
  | .close => inferInstanceAs (Decidable True)

/-- an attempt that is admitted leaves one token less than the refilled bucket had -/
def Pays (plat : Go.Platform) (t : Traffic) : Op → Prop
  | .allow now =>
    (allow plat t.limiter now).1.1 = true → (allow plat t.limiter now).2.tokens = level t.limiter now - 1
  | .wait now =>
    (waitRound plat t.limiter now).1 = .granted → (waitRound plat t.limiter now).2.tokens = level t.limiter now - 1
  | .close => True

/-- the condition on an attempt, of the limiter before it and of its instant -/
def Covered (plat : Go.Platform) (t : Traffic) : Op → Prop
  | .allow now => t.limiter.closed ∨ CoveredAt plat t.limiter now
  | .wait now => t.limiter.closed ∨ CoveredAt plat t.limiter now
  | .close => True

instance (plat : Go.Platform) (t : Traffic) : ∀ o, Decidable (Covered plat t o)
  | .allow now => inferInstanceAs (Decidable (_ ∨ CoveredAt plat t.limiter now))
  | .wait now => inferInstanceAs (Decidable (_ ∨ CoveredAt plat t.limiter now))
  | .close => inferInstanceAs (Decidable True)

/-- admissions in the interval, ends included -/
def admittedWithin (t : Traffic) (t1 t2 : ℕ) : ℕ := t.admitted.countP (fun i => decide (t1 ≤ i ∧ i ≤ t2))

/-- at most burst + rate * (t2 - t1) admissions in every interval -/
def Bounded (rate burst : ℚ) (t : Traffic) : Prop :=
  ∀ t1 t2, t1 ≤ t2 → (admittedWithin t t1 t2 : ℚ) ≤ burst + rate / 10 ^ 9 * (t2 - t1)

variable {t : Traffic}

theorem pays_iff_covered (hb : t.limiter.tokens ≤ t.limiter.burst) {o : Op}
    (ht : Timely t o) : Pays plat t o ↔ Covered plat t o := by
  cases o with
  | allow now | wait now =>
    by_cases hc : t.limiter.closed
    · simp [Pays, Covered, allow, waitRound, hc]
    rw [Covered, covered_iff plat ht hb]
    by_cases hw : (takeLocked plat t.limiter 1 now).1.2 ≤ 0
    · simp [Pays, allow, waitRound, hc, hw, not_lt.2 hw]
    · simp [Pays, allow, waitRound, hc, hw, not_le.1 hw]
  | close => exact Iff.rfl

def account (t : Traffic) : Budget.Account ℚ := ⟨t.limiter.tokens, t.limiter.last, t.admitted⟩

/-- the traffic of a limiter made with `rate` and `burst`, its bucket not overflowing -/
structure Sized (rate burst : ℚ) (t : Traffic) : Prop where
  rate_eq : t.limiter.rate = rate
  burst_eq : t.limiter.burst = burst
  capped : t.limiter.tokens ≤ t.limiter.burst

/-- its account is in order -/
structure Kept (rate burst : ℚ) (t : Traffic) : Prop extends Sized rate burst t where
  inv : (account t).Inv burst (rate / 10 ^ 9)

variable {burst rate : ℚ}

theorem Kept.bounded (h : Kept rate burst t) : Bounded rate burst t :=
  h.inv.within_le

theorem replenish_nonneg {l : Limiter} (ht : l.last ≤ now) (hb : l.tokens ≤ l.burst) (h0 : 0 ≤ l.tokens) :
    0 ≤ (replenish l now).tokens := by
  have hrate := l.rate_pos
  have helapsed : (0 : ℚ) ≤ now - l.last := sub_nonneg.2 (Nat.cast_le.2 ht)
  rw [(replenish_spec ht hb).2]
  exact le_min l.burst_pos.le (by positivity)

theorem attempt_spends {plat : Go.Platform} (h : Kept rate burst t)
    (ht : t.limiter.last ≤ now) (hopen : ¬ t.limiter.closed) (hc : CoveredAt plat t.limiter now) :
    ∃ k, (account t).Spends burst (rate / 10 ^ 9) k (account (attempt plat t now)) := by
  have hb := h.capped
  obtain ⟨hlast, htokens⟩ := replenish_spec ht hb
  have h0 := replenish_nonneg ht hb h.inv.nonneg
  rw [level, h.burst_eq, h.rate_eq] at htokens
  have hcap : (replenish t.limiter now).tokens ≤ burst := htokens ▸ min_le_left _ _
  have hrefill : (replenish t.limiter now).tokens ≤ t.limiter.tokens + rate / 10 ^ 9 * (now - t.limiter.last) :=
    htokens ▸ min_le_right _ _
  -- what is paid is paid at `now`, out of the bucket that has been refilled
  have hspends (k : ℕ) (hk : (k : ℚ) ≤ (replenish t.limiter now).tokens) (hattempt : account (attempt plat t now) =
      ⟨(replenish t.limiter now).tokens - k, now, t.admitted ++ List.replicate k now⟩) :
      ∃ k, (account t).Spends burst (rate / 10 ^ 9) k (account (attempt plat t now)) := by
    rw [hattempt]
    exact ⟨k, ht, rfl, sub_nonneg.2 hk, by simpa using hcap, by simpa [account] using hrefill⟩
  rcases takeLocked_cases plat t.limiter now with ⟨hfull, htake⟩ | ⟨hless, htake⟩
  · exact hspends 1 (by simpa using hfull) (by simp [account, attempt, hopen, htake, hlast])
  · -- the wait is positive: otherwise a covered attempt would have lost a token that nothing took
    have hwait : ¬ plat.int64 (delay (replenish t.limiter now) 1) ≤ 0 := by
      intro hle
      have hpaid := (covered_iff plat ht hb).1 hc (by rw [htake]; exact hle)
      rw [htake, ← (replenish_spec ht hb).2] at hpaid
      linarith
    exact hspends 0 (by simpa using h0) (by simp [account, attempt, hopen, htake, hwait, hlast])

theorem takeLocked_config (l : Limiter) (now : ℕ) :
    (takeLocked plat l 1 now).2.rate = l.rate ∧ (takeLocked plat l 1 now).2.burst = l.burst := by
  rcases takeLocked_cases plat l now with ⟨-, htake⟩ | ⟨-, htake⟩ <;> simp [htake]

theorem Sized.attempt (h : Sized rate burst t) (ht : t.limiter.last ≤ now) : Sized rate burst (attempt plat t now) := by
  by_cases hopen : t.limiter.closed
  · simpa [TokenBucket.attempt, hopen] using h
  obtain ⟨hrate, hburst⟩ := takeLocked_config plat t.limiter now
  have hlevel : (replenish t.limiter now).tokens ≤ t.limiter.burst := by
    rw [(replenish_spec ht h.capped).2]
    exact min_le_left _ _
  rw [TokenBucket.attempt, if_neg hopen]
  refine ⟨hrate.trans h.rate_eq, hburst.trans h.burst_eq, ?_⟩
  rw [hburst]
  rcases takeLocked_cases plat t.limiter now with ⟨-, htake⟩ | ⟨-, htake⟩ <;> rw [htake]
  · exact (sub_le_self _ one_pos.le).trans hlevel
  · exact hlevel

theorem Sized.step (h : Sized rate burst t) {o : Op} (ht : Timely t o) : Sized rate burst (step plat t o) := by
  cases o with
  | allow now | wait now =>
    simp only [step_allow, step_wait]
    exact h.attempt plat ht
  | close => exact ⟨h.rate_eq, h.burst_eq, h.capped⟩

theorem Kept.attempt {plat : Go.Platform} (hr : 0 < rate)
    (h : Kept rate burst t) (ht : t.limiter.last ≤ now) (hc : t.limiter.closed ∨ CoveredAt plat t.limiter now) :
    Kept rate burst (attempt plat t now) := by
  by_cases hopen : t.limiter.closed
  · simpa [TokenBucket.attempt, hopen] using h
  obtain ⟨k, hspends⟩ := attempt_spends h ht hopen (hc.resolve_left hopen)
  exact ⟨h.toSized.attempt plat ht, h.inv.spends (by positivity) hspends⟩

theorem Kept.step {plat : Go.Platform} (hr : 0 < rate) (h : Kept rate burst t) (o : Op)
    (ht : Timely t o) (hc : Covered plat t o) : Kept rate burst (step plat t o) := by
  cases o with
  | allow now | wait now =>
    simp only [step_allow, step_wait]
    exact h.attempt hr ht hc
  | close => exact { h with }

theorem kept_new {now0 : ℕ} {l : Limiter} (hl : new rate burst now0 = .ok l) : 0 < rate ∧ Kept rate burst ⟨l, []⟩ := by
  unfold new at hl
  split_ifs at hl with h
  obtain ⟨hr, hb⟩ : 0 < rate ∧ 0 < burst := by simpa using h
  obtain rfl := Except.ok.inj hl
  exact ⟨hr, ⟨rfl, rfl, le_rfl⟩, Budget.Account.Inv.start (by positivity) hb.le le_rfl rfl⟩

/-- **The rate bound.** For attempts at non-decreasing times: every admitted one takes exactly one token if and only if
every attempt is `Covered`, and then every interval holds at most burst + rate * (t2 - t1) admissions. -/
theorem bounded_of_covered (plat : Go.Platform) (rate burst : ℚ) (now0 : ℕ) (l : Limiter)
    (hl : new rate burst now0 = .ok l) (ops : List Op) (ht : Along (step plat) Timely ⟨l, []⟩ ops) :
    (Along (step plat) (Pays plat) ⟨l, []⟩ ops ↔ Along (step plat) (Covered plat) ⟨l, []⟩ ops) ∧
      (Along (step plat) (Covered plat) ⟨l, []⟩ ops → Always (step plat) (Bounded rate burst) ⟨l, []⟩ ops) := by
  obtain ⟨hr, hkept⟩ := kept_new hl
  refine ⟨along_congr (I := Sized rate burst) (fun t o h ho => h.step plat ho)
    (fun t o h ho => pays_iff_covered plat h.capped ho) hkept.toSized ht, fun hc => ?_⟩
  refine always_of_along (C := fun t o => Timely t o ∧ Covered plat t o) (fun t h => h.bounded) ?_ hkept
    (along_and.2 ⟨ht, hc⟩)
  intro t o h htc
  exact h.step hr o htc.1 htc.2

def three : Limiter := ⟨3, 1, 1, 0, false, by norm_num, by norm_num⟩

/-- two attempts a third of a nanosecond before the second token -/
def freeOps : List Op := [.allow 0, .allow 333333333, .wait 333333333]

/-- **Free admissions**: three requests within 333333333 ns, where 1 + 3 * 0.333333333 < 2 are due -/
theorem free_admissions :
    new 3 1 0 = .ok three ∧ Along (step Go.amd64) Timely ⟨three, []⟩ freeOps ∧
      (run (step Go.amd64) ⟨three, []⟩ freeOps).admitted = [0, 333333333, 333333333] ∧
      ¬ (admittedWithin (run (step Go.amd64) ⟨three, []⟩ freeOps) 0 333333333 : ℚ) ≤
        1 + 3 / 10 ^ 9 * ((333333333 : ℕ) - (0 : ℕ)) :=
  ⟨rfl, by decide +kernel, by decide +kernel, by decide +kernel⟩

/-- attempts that come early enough to wait, or late enough to pay -/
theorem bounded_when_spaced :
    Always (step Go.amd64) (Bounded 3 1) ⟨three, []⟩ [.allow 0, .allow 100000000, .wait 400000000] :=
  (bounded_of_covered Go.amd64 3 1 0 three rfl _ (by decide +kernel)).2 (by decide +kernel)

end LuluExt.TokenBucket
