/-
`Retrier.Do` when its context is never done: how often the function is called, and which error comes back.

The loop has four ways to end: the function returns nil, its error is not retried, the attempts are used up, or the
total time is over. The last attempt is looked at before the time is, so an error of the last attempt is never a
timeout. Errors are joined by `errors.Join`; what an error of the function wraps itself is left open.

- `doWith_eq`: the result and the state, for the first attempt that ends the loop.
-/
import LuluExt.Retry

namespace LuluExt.Retry

variable {ε σ : Type}

/-! ## Errors -/

def errMaxAttempts : GoError := ⟨"retry: max attempts exceeded"⟩

def errTimeout : GoError := ⟨"retry: total timeout exceeded"⟩

/-- an error that another one may wrap: a variable of a package, or one that the function returned -/
inductive Target (ε : Type) where
  | sentinel (e : GoError)
  | own (e : ε)
deriving DecidableEq, Repr

/-- the errors that `errors.Join` was given, without those that are nil; or the error itself -/
def DoError.parts : DoError ε → List (Target ε)
  | .context e => [.sentinel e]
  | .last e => [.own e]
  | .timeout e => [.sentinel errTimeout, .own e]
  | .maxAttempts none => [.sentinel errMaxAttempts]
  | .maxAttempts (some e) => [.sentinel errMaxAttempts, .own e]

/-- the target is reached by unwrapping; `unwraps` is what an error of the function wraps beside itself -/
def DoError.Wraps (unwraps : ε → Target ε → Prop) (err : DoError ε) (target : Target ε) : Prop :=
  ∃ part ∈ err.parts, part = target ∨ ∃ e, part = .own e ∧ unwraps e target

/-! ## The attempt that ends the loop -/

/-- the context is not done before an attempt, nor during a sleep -/
structure World.NeverDone (w : World) : Prop where
  ctxErr : ∀ k, w.ctxErr k = none
  sleep : ∀ k d, w.sleep k d = none

section Ends

variable (r : Retrier ε) (w : World) (fn : ℕ → σ → Option ε × σ) (s : σ)

/-- the loop does not go on after attempt k (counted from 0) -/
def Ends (k : ℕ) : Prop :=
  returned fn k s = none ∨ (∃ e, returned fn k s = some e ∧ r.classifier e = false) ∨ k + 1 = r.maxAttempts ∨
    (0 < r.maxTotalWait ∧ r.maxTotalWait ≤ w.now k - w.start)

/-- the result when attempt k is the last one made -/
@[simp] def verdict (k : ℕ) : Option ε → Option (DoError ε)
  | none => none
  | some e =>
    if r.classifier e = false then some (.last e)
    else if k + 1 = r.maxAttempts then some (.maxAttempts (some e))
    else some (.timeout e)

end Ends

section

variable {r : Retrier ε} {w : World} {fn : ℕ → σ → Option ε × σ} {s : σ}

theorem wait_eq_none_iff {k : ℕ} :
    r.wait w k = none ↔ 0 < r.maxTotalWait ∧ r.maxTotalWait ≤ w.now k - w.start := by
  unfold Retrier.wait
  by_cases hmax : 0 < r.maxTotalWait
  · by_cases hover : r.maxTotalWait - (w.now k - w.start) ≤ 0
    · simp [hover]
      omega
    · simp [hmax, hover]
      omega
  · simp [hmax]

/-- an attempt that does not end the loop returned an error that is retried, is not the last, and leaves time -/
theorem not_ends {k : ℕ} (h : ¬ Ends r w fn s k) :
    ∃ e wait, returned fn k s = some e ∧ r.classifier e ∧ k + 1 ≠ r.maxAttempts ∧ r.wait w k = some wait := by
  simp only [Ends, not_or, not_exists, not_and] at h
  obtain ⟨hnil, hclass, hlast, hlate⟩ := h
  obtain ⟨e, he⟩ := Option.ne_none_iff_exists'.1 hnil
  have hwait : r.wait w k ≠ none := by
    rw [Ne, wait_eq_none_iff]
    exact fun hover => hlate hover.1 hover.2
  obtain ⟨wait, hwait⟩ := Option.ne_none_iff_exists'.1 hwait
  exact ⟨e, wait, he, by simpa using hclass e he, hlast, hwait⟩

theorem loop_ends (hw : w.NeverDone) {left attempt : ℕ} (hleft : attempt + (left + 1) = r.maxAttempts)
    (hend : Ends r w fn s attempt) (lastErr : Option ε) :
    r.loop w fn (left + 1) attempt lastErr (after fn attempt s) =
      (verdict r attempt (returned fn attempt s), after fn (attempt + 1) s) := by
  simp only [Retrier.loop, hw.ctxErr]
  rcases hfn : fn attempt (after fn attempt s) with ⟨err, s'⟩
  have hret : returned fn attempt s = err := by rw [returned, hfn]
  have hafter : after fn (attempt + 1) s = s' := by rw [after, hfn]
  rw [hret, hafter]
  cases err with
  | none => rfl
  | some e =>
    by_cases hclass : r.classifier e = false
    · simp [hclass]
    · by_cases hlast : left = 0
      · have hmax : attempt + 1 = r.maxAttempts := by omega
        simp [hclass, hlast, hmax]
      · have hmax : attempt + 1 ≠ r.maxAttempts := by omega
        have hwait : r.wait w attempt = none := by
          rw [wait_eq_none_iff]
          rcases hend with hnil | ⟨e', he', hclass'⟩ | hmax' | hlate
          · rw [hret] at hnil
            cases hnil
          · rw [hret] at he'
            cases he'
            exact absurd hclass' hclass
          · exact absurd hmax' hmax
          · exact hlate
        simp [hclass, hlast, hmax, hwait]

theorem loop_eq (hw : w.NeverDone) {k : ℕ} (hend : Ends r w fn s k) (hfirst : ∀ j < k, ¬ Ends r w fn s j)
    {left attempt : ℕ} (hleft : attempt + left = r.maxAttempts) (hk : attempt ≤ k) (hmax : k < r.maxAttempts)
    (lastErr : Option ε) :
    r.loop w fn left attempt lastErr (after fn attempt s) = (verdict r k (returned fn k s), after fn (k + 1) s) := by
  induction left generalizing attempt lastErr with
  | zero => omega
  | succ left ih =>
    rcases Nat.eq_or_lt_of_le hk with rfl | hlt
    · exact loop_ends hw hleft hend lastErr
    · obtain ⟨e, wait, he, hclass, hlast, hwait⟩ := not_ends (hfirst attempt hlt)
      have hleft' : left ≠ 0 := by omega
      have hfn : fn attempt (after fn attempt s) = (some e, after fn (attempt + 1) s) := by
        rw [← he]
        rfl
      rw [← ih (by omega) hlt (some e)]
      simp only [Retrier.loop, hw.ctxErr, hfn, hclass, hleft', hwait, hw.sleep]
      rfl

theorem exists_least (r : Retrier ε) (w : World) (fn : ℕ → σ → Option ε × σ) (s : σ) :
    ∃ k, IsLeast {i | Ends r w fn s i} k ∧ k < r.maxAttempts := by
  classical
  have hpos := r.attempts_pos
  have hlast : Ends r w fn s (r.maxAttempts - 1) := .inr (.inr (.inl (by omega)))
  have hex : ∃ k, Ends r w fn s k := ⟨_, hlast⟩
  refine ⟨Nat.find hex, ⟨Nat.find_spec hex, fun j hj => Nat.find_min' hex hj⟩, ?_⟩
  have hle := Nat.find_min' hex hlast
  omega

theorem doWith_eq (hw : w.NeverDone) {k : ℕ} (hk : IsLeast {i | Ends r w fn s i} k) (hmax : k < r.maxAttempts) :
    r.doWith w fn s = (verdict r k (returned fn k s), after fn (k + 1) s) := by
  have hfirst : ∀ j < k, ¬ Ends r w fn s j := fun j hj hend => absurd (hk.2 hend) (by omega)
  exact loop_eq hw hk.1 hfirst (Nat.zero_add _) (Nat.zero_le k) hmax none

end

/-! ## Calls -/

def counted (fn : ℕ → σ → Option ε × σ) (attempt : ℕ) (s : σ × ℕ) : Option ε × (σ × ℕ) :=
  ((fn attempt s.1).1, ((fn attempt s.1).2, s.2 + 1))

def Retrier.calls (r : Retrier ε) (w : World) (fn : ℕ → σ → Option ε × σ) (s : σ) : ℕ :=
  (r.doWith w (counted fn) (s, 0)).2.2

theorem after_counted (fn : ℕ → σ → Option ε × σ) (n : ℕ) (s : σ) :
    after (counted fn) n (s, 0) = (after fn n s, n) := by
  induction n with
  | zero => rfl
  | succ n ih => simp only [after, ih, counted]

theorem returned_counted (fn : ℕ → σ → Option ε × σ) (k : ℕ) (s : σ) :
    returned (counted fn) k (s, 0) = returned fn k s := by
  simp only [returned, after_counted, counted]

theorem ends_counted {r : Retrier ε} {w : World} {fn : ℕ → σ → Option ε × σ} {s : σ} :
    Ends r w (counted fn) (s, 0) = Ends r w fn s := by
  funext k
  simp only [Ends, returned_counted]

theorem calls_eq {r : Retrier ε} {w : World} {fn : ℕ → σ → Option ε × σ} {s : σ} (hw : w.NeverDone) {k : ℕ}
    (hk : IsLeast {i | Ends r w fn s i} k) (hmax : k < r.maxAttempts) : r.calls w fn s = k + 1 := by
  rw [Retrier.calls, doWith_eq hw (by rwa [ends_counted]) hmax, after_counted]

/-! ## What comes back -/

theorem verdict_eq_none_iff (r : Retrier ε) (k : ℕ) (result : Option ε) :
    verdict r k result = none ↔ result = none := by
  cases result with
  | none => simp
  | some e =>
    simp only [verdict]
    split_ifs <;> simp

theorem wraps_maxAttempts {unwraps : ε → Target ε → Prop} {e : ε} {target : Target ε} :
    (DoError.maxAttempts (some e)).Wraps unwraps target ↔
      target = .sentinel errMaxAttempts ∨ target = .own e ∨ unwraps e target := by
  simp [DoError.Wraps, DoError.parts, eq_comm]

theorem wraps_timeout {unwraps : ε → Target ε → Prop} {e : ε} {target : Target ε} :
    (DoError.timeout e).Wraps unwraps target ↔
      target = .sentinel errTimeout ∨ target = .own e ∨ unwraps e target := by
  simp [DoError.Wraps, DoError.parts, eq_comm]

theorem errTimeout_ne_errMaxAttempts : errTimeout ≠ errMaxAttempts := by decide

/-- **Do, call by call**, with a context that is never done. Let k be the first attempt that returns nil, returns an
error that is not retried, is the last one allowed, or after which the total time is over. The function is called k + 1
times; the result is nil exactly when attempt k returned nil; it is the error of attempt k when that is not retried; and
otherwise it wraps that error and exactly one of `ErrMaxAttempts`, when attempt k was the last one allowed, and
`ErrTimeout`. -/
theorem do_calls (r : Retrier ε) (w : World) (fn : ℕ → σ → Option ε × σ) (s : σ) (unwraps : ε → Target ε → Prop)
    (hw : w.NeverDone)
    (hown : ∀ k e, returned fn k s = some e →
      ¬ unwraps e (.sentinel errMaxAttempts) ∧ ¬ unwraps e (.sentinel errTimeout)) :
    ∃ k, IsLeast {i | Ends r w fn s i} k ∧ r.calls w fn s = k + 1 ∧
      ((r.doWith w fn s).1 = none ↔ returned fn k s = none) ∧
      (∀ e, returned fn k s = some e → r.classifier e = false → (r.doWith w fn s).1 = some (.last e)) ∧
      ∀ e, returned fn k s = some e → r.classifier e = true → ∃ err, (r.doWith w fn s).1 = some err ∧
        err.Wraps unwraps (.own e) ∧ (err.Wraps unwraps (.sentinel errMaxAttempts) ↔ k + 1 = r.maxAttempts) ∧
        (err.Wraps unwraps (.sentinel errTimeout) ↔ k + 1 ≠ r.maxAttempts) := by
  obtain ⟨k, hk, hmax⟩ := exists_least r w fn s
  rw [doWith_eq hw hk hmax]
  refine ⟨k, hk, calls_eq hw hk hmax, verdict_eq_none_iff r k _, ?_, ?_⟩
  · intro e he hclass
    simp [he, hclass]
  · intro e he hclass
    obtain ⟨hmaxAttempts, htimeout⟩ := hown k e he
    have hne := errTimeout_ne_errMaxAttempts
    by_cases hlast : k + 1 = r.maxAttempts
    · refine ⟨.maxAttempts (some e), by simp [he, hclass, hlast], ?_⟩
      simp [wraps_maxAttempts, hlast, htimeout, hne]
    · refine ⟨.timeout e, by simp [he, hclass, hlast], ?_⟩
      simp [wraps_timeout, hlast, hmaxAttempts, hne.symm]

def failsOnce (attempt : ℕ) (_ : Unit) : Option GoError × Unit :=
  (if attempt = 0 then some ⟨"unavailable"⟩ else none, ())

theorem failsOnce_calls :
    ∃ k, IsLeast {i | Ends (defaultRetrier Go.amd64) idleWorld failsOnce () i} k ∧
      (defaultRetrier Go.amd64).calls idleWorld failsOnce () = k + 1 ∧
      (((defaultRetrier Go.amd64).doWith idleWorld failsOnce ()).1 = none ↔ returned failsOnce k () = none) := by
  obtain ⟨k, hk, hcalls, hnil, -⟩ := do_calls (defaultRetrier Go.amd64) idleWorld failsOnce () (fun _ _ => False)
    ⟨fun _ => rfl, fun _ _ => rfl⟩ (fun _ _ _ => ⟨not_false, not_false⟩)
  exact ⟨k, hk, hcalls, hnil⟩

end LuluExt.Retry
