/-
`Retrier.Do`: a function is called until it returns nil, returns an error that is not retried, the attempts are used up,
the total time is over, or the context is done.

The function acts on a state of the caller's (the variables its closure captures). What `Do` learns from outside is a
`World`: readings of the clock, the context before each attempt and during each sleep, and the draws for the jitter. A
context may be done before the first attempt, and then the function is not called at all.
-/
import LuluExt.Lib.Go

namespace LuluExt.Retry

variable {ε σ : Type}

/-! ## Retriers -/

/-- durations are nanoseconds; a jitter is given the delay and a source of random numbers in [0, 1) -/
structure Retrier (ε : Type) where
  maxAttempts : ℕ
  attempts_pos : 0 < maxAttempts
  backoff : ℕ → ℤ
  jitter : ℤ → (ℕ → ℚ) → ℤ
  classifier : ε → Bool
  maxTotalWait : ℤ

def second : ℤ := 1000000000

def millisecond : ℤ := 1000000

structure ExponentialBackoff where
  initial : ℤ
  factor : ℚ
  max : ℤ

/-- the loop of `Delay`: it stops at the first product above the maximum -/
def ExponentialBackoff.grow (plat : Go.Platform) (b : ExponentialBackoff) : ℕ → ℚ → ℤ
  | 0, d => if b.max > 0 ∧ plat.int64 d > b.max then b.max else plat.int64 d
  | n + 1, d =>
    if b.max > 0 ∧ plat.int64 (d * b.factor) > b.max then b.max else b.grow plat n (d * b.factor)

def ExponentialBackoff.delay (plat : Go.Platform) (b : ExponentialBackoff) (attempt : ℕ) : ℤ :=
  b.grow plat attempt b.initial

def noJitter (delay : ℤ) (_ : ℕ → ℚ) : ℤ := delay

def retryAny (_ : ε) : Bool := true

theorem three_pos : 0 < 3 := by decide

def defaultRetrier (plat : Go.Platform) : Retrier ε where
  maxAttempts := 3
  attempts_pos := three_pos
  backoff := ExponentialBackoff.delay plat ⟨200 * millisecond, 2, 10 * second⟩
  jitter := noJitter
  classifier := retryAny
  maxTotalWait := 0

def withMaxAttempts (n : ℤ) (r : Retrier ε) : Retrier ε :=
  if h : n ≥ 1 then { r with maxAttempts := n.toNat, attempts_pos := Go.toNat_pos (Int.lt_of_lt_of_le Int.one_pos h) }
  else r

def withBackoff (b : ℕ → ℤ) (r : Retrier ε) : Retrier ε := { r with backoff := b }

def withJitter (j : ℤ → (ℕ → ℚ) → ℤ) (r : Retrier ε) : Retrier ε := { r with jitter := j }

def withClassifier (c : ε → Bool) (r : Retrier ε) : Retrier ε := { r with classifier := c }

def withMaxTotalWait (d : ℤ) (r : Retrier ε) : Retrier ε := { r with maxTotalWait := d }

def new (plat : Go.Platform) (opts : List (Retrier ε → Retrier ε)) : Retrier ε :=
  opts.foldl (fun r opt => opt r) (defaultRetrier plat)

/-! ## Do -/

/-- what a call of `Do` sees of the world; attempts are counted from 0 -/
structure World where
  start : ℤ
  /-- the clock after an attempt that failed -/
  now : ℕ → ℤ
  /-- `ctx.Err()` before an attempt -/
  ctxErr : ℕ → Option GoError
  /-- the random numbers of the jitter after an attempt -/
  draws : ℕ → ℕ → ℚ
  /-- the sleep after an attempt, for so long: the context's error if it is done first -/
  sleep : ℕ → ℤ → Option GoError

def cancelledWorld : World where
  start := 0
  now _ := 0
  ctxErr _ := some ⟨"context canceled"⟩
  draws _ _ := 0
  sleep _ _ := some ⟨"context canceled"⟩

/-- a context that is never done, and a clock that stands still -/
def idleWorld : World where
  start := 0
  now _ := 0
  ctxErr _ := none
  draws _ _ := 0
  sleep _ _ := none

/-- the error of `Do`, by the place that returns it -/
inductive DoError (ε : Type) where
  | context (e : GoError)
  | last (e : ε)
  | timeout (e : ε)
  | maxAttempts (e : Option ε)
deriving DecidableEq, Repr

section Loop

variable (r : Retrier ε) (w : World) (fn : ℕ → σ → Option ε × σ)

/-- the wait after an attempt, cut to what remains of the total; `none` when nothing remains -/
def Retrier.wait (attempt : ℕ) : Option ℤ :=
  let wait := r.jitter (r.backoff attempt) (w.draws attempt)
  if r.maxTotalWait > 0 then
    let remaining := r.maxTotalWait - (w.now attempt - w.start)
    if remaining ≤ 0 then none else some (min wait remaining)
  else some wait

/-- the loop of `Do` with some attempts left; `lastErr` is the error of the attempt before -/
def Retrier.loop : ℕ → ℕ → Option ε → σ → Option (DoError ε) × σ
  | 0, _, lastErr, s => (some (.maxAttempts lastErr), s)
  | left + 1, attempt, _, s =>
    match w.ctxErr attempt with
    | some e => (some (.context e), s)
    | none =>
      match fn attempt s with
      | (none, s) => (none, s)
      | (some e, s) =>
        if !r.classifier e then (some (.last e), s)
        else if left = 0 then (some (.maxAttempts (some e)), s)
        else
          match r.wait w attempt with
          | none => (some (.timeout e), s)
          | some wait =>
            match w.sleep attempt wait with
            | some e => (some (.context e), s)
            | none => Retrier.loop left (attempt + 1) (some e) s

def Retrier.doWith (s : σ) : Option (DoError ε) × σ := r.loop w fn r.maxAttempts 0 none s

end Loop

def after (fn : ℕ → σ → Option ε × σ) : ℕ → σ → σ
  | 0, s => s
  | n + 1, s => (fn n (after fn n s)).2

def returned (fn : ℕ → σ → Option ε × σ) (k : ℕ) (s : σ) : Option ε := (fn k (after fn k s)).1

/-- n attempts were made from the state s, with the result and the state at the end -/
structure Made (r : Retrier ε) (fn : ℕ → σ → Option ε × σ) (s : σ) (n : ℕ) (result : Option (DoError ε) × σ) :
    Prop where
  state : result.2 = after fn n s
  /-- all but the last returned an error that is retried -/
  retried : ∀ k, k + 1 < n → ∃ e, returned fn k s = some e ∧ r.classifier e = true
  /-- the result is nil exactly when the last one returned nil -/
  nil_iff : result.1 = none ↔ ∃ k, n = k + 1 ∧ returned fn k s = none

theorem Made.error {r : Retrier ε} {fn : ℕ → σ → Option ε × σ} {s : σ} {n : ℕ} (e : DoError ε)
    (hretried : ∀ k, k + 1 < n → ∃ e, returned fn k s = some e ∧ r.classifier e)
    (hlast : ∀ k, n = k + 1 → ∃ e, returned fn k s = some e) : Made r fn s n (some e, after fn n s) where
  state := rfl
  retried := hretried
  nil_iff := by
    constructor
    · intro h
      cases h
    · rintro ⟨k, hn, hk⟩
      obtain ⟨e', he'⟩ := hlast k hn
      rw [he'] at hk
      cases hk

theorem Made.error_of_retried {r : Retrier ε} {fn : ℕ → σ → Option ε × σ} {s : σ} {n : ℕ} (e : DoError ε)
    (hretried : ∀ k < n, ∃ e, returned fn k s = some e ∧ r.classifier e) :
    Made r fn s n (some e, after fn n s) := by
  refine .error e (fun k hk => hretried k (by omega)) fun k hk => ?_
  obtain ⟨e', he', -⟩ := hretried k (by omega)
  exact ⟨e', he'⟩

theorem loop_made (r : Retrier ε) (w : World) (fn : ℕ → σ → Option ε × σ) (s : σ) (left attempt : ℕ)
    (lastErr : Option ε) (hbefore : ∀ k < attempt, ∃ e, returned fn k s = some e ∧ r.classifier e) :
    ∃ n, attempt ≤ n ∧ n ≤ attempt + left ∧ (0 < left → (n = attempt ↔ (w.ctxErr attempt).isSome)) ∧
      Made r fn s n (r.loop w fn left attempt lastErr (after fn attempt s)) := by
  induction left generalizing attempt lastErr with
  | zero =>
    exact ⟨attempt, le_rfl, le_rfl, by simp, .error_of_retried _ hbefore⟩
  | succ left ih =>
    cases hctx : w.ctxErr attempt with
    | some e =>
      refine ⟨attempt, le_rfl, by omega, by simp, ?_⟩
      simp only [Retrier.loop, hctx]
      exact .error_of_retried _ hbefore
    | none =>
      have hafter : after fn (attempt + 1) s = (fn attempt (after fn attempt s)).2 := rfl
      simp only [Retrier.loop, hctx]
      rcases hfn : fn attempt (after fn attempt s) with ⟨err, s'⟩
      have hret : returned fn attempt s = err := by rw [returned, hfn]
      rw [hfn] at hafter
      cases err with
      | none =>
        refine ⟨attempt + 1, by omega, by omega, by simp, hafter.symm, fun k hk => hbefore k (by omega), ?_⟩
        exact ⟨fun _ => ⟨attempt, rfl, hret⟩, fun _ => rfl⟩
      | some e =>
        -- every way to stop after this attempt returns an error
        have hstop : ∀ e' : DoError ε, Made r fn s (attempt + 1) (some e', s') := by
          intro e'
          have herror := Made.error (r := r) e' (fun k (hk : k + 1 < attempt + 1) => hbefore k (by omega)) ?_
          · rwa [hafter] at herror
          · intro k hk
            have heq : k = attempt := by omega
            exact ⟨e, heq ▸ hret⟩
        dsimp only
        split_ifs with hclass hleft
        · exact ⟨attempt + 1, by omega, by omega, by simp, hstop _⟩
        · exact ⟨attempt + 1, by omega, by omega, by simp, hstop _⟩
        · cases r.wait w attempt with
          | none => exact ⟨attempt + 1, by omega, by omega, by simp, hstop _⟩
          | some wait =>
            dsimp only
            cases w.sleep attempt wait with
            | some e' => exact ⟨attempt + 1, by omega, by omega, by simp, hstop _⟩
            | none =>
              have hnext : ∀ k < attempt + 1, ∃ e, returned fn k s = some e ∧ r.classifier e := by
                intro k hk
                rcases Nat.lt_succ_iff_lt_or_eq.1 hk with hlt | rfl
                · exact hbefore k hlt
                · exact ⟨e, hret, by simpa using hclass⟩
              obtain ⟨n, hle, hmax, -, hmade⟩ := ih (attempt + 1) (some e) hnext
              rw [hafter] at hmade
              exact ⟨n, by omega, by omega, by simp; omega, hmade⟩

/-- **Do.** It makes at most `maxAttempts` attempts, none exactly when the context is done before the first; all but the
last of them returned an error that is retried; and it returns nil exactly when the last one was made and returned
nil. -/
theorem doWith_spec (r : Retrier ε) (w : World) (fn : ℕ → σ → Option ε × σ) (s : σ) :
    ∃ n ≤ r.maxAttempts, (n = 0 ↔ (w.ctxErr 0).isSome) ∧ Made r fn s n (r.doWith w fn s) := by
  obtain ⟨n, -, hmax, hzero, hmade⟩ := loop_made r w fn s r.maxAttempts 0 none (by simp)
  exact ⟨n, by omega, hzero r.attempts_pos, hmade⟩

end LuluExt.Retry
