/-
The keyed HTTP middlewares: a rate limiter, or a circuit breaker, for each key.

`MiddlewareKeyed` keeps a map from keys to limiters. `getLimiter` takes the mutex, looks the key up, calls the factory
for a key that is not there, enters what it returns, and releases the mutex, also when the factory panics; the calls on
the limiter come after that. The same holds for `getBreaker`. The factory is any: each of its calls returns an object or
panics, and the object may be one that it has returned before. A limiter or breaker answers by the calls it has
received, each with its request and its instant. One step of a request is one of those of `getLimiter`, one call on the
limiter, the return of a `Wait`, or the end of the handler, so that runs are all interleavings of requests.
-/
import LuluExt.Lib.Keyed
import LuluExt.Transport.RateLimit
import LuluExt.Transport.CircuitBreaker

namespace LuluExt.Http.PerKey

open Run Keyed

variable {κ ρ : Type}

/-! ## Rate limiting -/

inductive LimiterCall where
  | allow (r now : ℕ)
  | wait (r now : ℕ)
  | waited (r now : ℕ)
deriving DecidableEq, Repr

structure Limiter where
  /-- the last of the calls is the `Allow` in question -/
  allow : List LimiterCall → Bool × Option GoError
  /-- the `Wait` of a request at an instant; `none` while it blocks -/
  wait : List LimiterCall → ℕ → ℕ → Option (Option GoError)

inductive LimitPc where
  | located
  | waiting
  | serving
  | rejected (answer : Behaviour)
  | served
deriving DecidableEq, Repr

inductive LimitInput where
  /-- the call of `Allow`, or of `Wait` -/
  | call (now : ℕ)
  | wake (now : ℕ)
  | finish

/-- a request of the rate-limit middleware, with the calls its limiter has received -/
def limitAct (cfg : Limiting.Options) (l : Limiter) (r : ℕ) (calls : List LimiterCall) :
    LimitPc → LimitInput → LimitPc × List LimiterCall
  | .located, .call now =>
    if cfg.waitMode then (.waiting, [.wait r now])
    else
      let (ok, err) := l.allow (calls ++ [.allow r now])
      (if ok = false ∨ err ≠ none then .rejected (cfg.errorHandler r err) else .serving, [.allow r now])
  | .waiting, .wake now =>
    match l.wait calls r now with
    | none => (.waiting, [])
    | some none => (.serving, [.waited r now])
    | some (some e) => (.rejected (cfg.errorHandler r (some e)), [.waited r now])
  | .serving, .finish => (.served, [])
  | p, _ => (p, [])

def LimiterCall.request : LimiterCall → ℕ
  | .allow r _ => r
  | .wait r _ => r
  | .waited r _ => r

theorem limitAct_request (cfg : Limiting.Options) (l : Limiter) (r : ℕ) (calls : List LimiterCall) (p : LimitPc)
    (a : LimitInput) : ∀ e ∈ (limitAct cfg l r calls p a).2, e.request = r := by
  fun_cases limitAct cfg l r calls p a <;> simp_all [LimiterCall.request]

/-- what a request has called: one `Allow`, or one `Wait` and its return -/
def limitInduced (cfg : Limiting.Options) (r : ℕ) : LimitPc → List LimiterCall → Prop
  | .located, calls => calls = []
  | .waiting, calls => cfg.waitMode = true ∧ ∃ t, calls = [.wait r t]
  | _, calls => if cfg.waitMode then ∃ t t', calls = [.wait r t, .waited r t'] else ∃ t, calls = [.allow r t]

theorem limitAct_induced (cfg : Limiting.Options) (l : Limiter) (r : ℕ) (calls : List LimiterCall) (p : LimitPc)
    (a : LimitInput) (es : List LimiterCall) (h : limitInduced cfg r p es) :
    limitInduced cfg r (limitAct cfg l r calls p a).1 (es ++ (limitAct cfg l r calls p a).2) := by
  cases p with
  | located =>
    obtain rfl : es = [] := h
    cases a with
    | call now =>
      simp only [limitAct]
      split_ifs with hmode hrejected
      · exact ⟨hmode, now, rfl⟩
      · simp [limitInduced, hmode]
      · simp [limitInduced, hmode]
    | wake | finish => rfl
  | waiting =>
    obtain ⟨hmode, t, rfl⟩ := h
    cases a with
    | wake now =>
      simp only [limitAct]
      split <;> simp [limitInduced, hmode]
    | call | finish => exact ⟨hmode, t, rfl⟩
  | serving => cases a <;> simpa [limitAct, limitInduced] using h
  | rejected | served => simpa [limitAct, limitInduced] using h

/-- `MiddlewareKeyed` of the rate limiter, with how each object that the factory returns answers; a skipped request goes
straight to the handler -/
def rateLimit (cfg : Limiting.Options) (keyFn : ℕ → κ) (limiter : ℕ → Limiter) :
    Protocol κ ℕ LimiterCall LimitPc LimitInput where
  key := keyFn
  outside := Limiting.skips cfg
  pass := .serving
  enter := .located
  act n r p calls a := limitAct cfg (limiter n) r calls p a
  apart _
    | .serving, .finish => .served
    | p, _ => p
  client := LimiterCall.request
  client_act n r p calls a := limitAct_request cfg (limiter n) r calls p a

/-! ## Circuit breaking -/

inductive BreakerCall (ρ : Type) where
  | allow (r : ρ) (now : ℕ)
  | markSuccess (r : ρ) (now : ℕ)
  | markFailure (r : ρ) (now : ℕ)
deriving DecidableEq, Repr

inductive BreakPc where
  | located
  | serving
  | rejected (answer : Behaviour)
  | served
  | panicked
deriving DecidableEq, Repr

inductive BreakInput where
  | call (now : ℕ)
  | finish (now : ℕ)

/-- a request of the circuit-breaker middleware; `breaker` answers the last of the calls, an `Allow` -/
def breakAct (cfg : BreakerOptions ρ) (next : ρ → Behaviour) (breaker : List (BreakerCall ρ) → Option GoError) (r : ρ)
    (calls : List (BreakerCall ρ)) : BreakPc → BreakInput → BreakPc × List (BreakerCall ρ)
  | .located, .call now =>
    match breaker (calls ++ [.allow r now]) with
    | some e => (.rejected (cfg.errorHandler r e), [.allow r now])
    | none => (.serving, [.allow r now])
  | .serving, .finish now =>
    match (next r).serve with
    | none => (.panicked, [])
    | some rw => (.served, [if isFailure cfg rw.status then .markFailure r now else .markSuccess r now])
  | p, _ => (p, [])

def BreakerCall.request : BreakerCall ρ → ρ
  | .allow r _ => r
  | .markSuccess r _ => r
  | .markFailure r _ => r

theorem breakAct_request (cfg : BreakerOptions ρ) (next : ρ → Behaviour)
    (breaker : List (BreakerCall ρ) → Option GoError) (r : ρ) (calls : List (BreakerCall ρ)) (p : BreakPc)
    (a : BreakInput) : ∀ e ∈ (breakAct cfg next breaker r calls p a).2, e.request = r := by
  fun_cases breakAct cfg next breaker r calls p a
  case case4 =>
    intro e he
    obtain rfl := List.mem_singleton.1 he
    split_ifs <;> rfl
  all_goals simp [BreakerCall.request]

/-- what a request has called: `Allow`, and one of the marks once the handler has returned -/
def breakInduced (cfg : BreakerOptions ρ) (next : ρ → Behaviour) (r : ρ) : BreakPc → List (BreakerCall ρ) → Prop
  | .located, calls => calls = []
  | .served, calls => ∃ rw t t', (next r).serve = some rw ∧
      calls = [.allow r t, if isFailure cfg rw.status then .markFailure r t' else .markSuccess r t']
  | _, calls => ∃ t, calls = [.allow r t]

theorem breakAct_induced (cfg : BreakerOptions ρ) (next : ρ → Behaviour)
    (breaker : List (BreakerCall ρ) → Option GoError) (r : ρ) (calls : List (BreakerCall ρ)) (p : BreakPc)
    (a : BreakInput) (es : List (BreakerCall ρ)) (h : breakInduced cfg next r p es) :
    breakInduced cfg next r (breakAct cfg next breaker r calls p a).1
      (es ++ (breakAct cfg next breaker r calls p a).2) := by
  cases p with
  | located =>
    obtain rfl : es = [] := h
    cases a with
    | call now =>
      simp only [breakAct]
      split <;> exact ⟨now, rfl⟩
    | finish => rfl
  | serving =>
    obtain ⟨t, rfl⟩ := h
    cases a with
    | call => exact ⟨t, rfl⟩
    | finish now =>
      simp only [breakAct]
      split
      next => exact ⟨t, rfl⟩
      next rw hrw => exact ⟨rw, t, now, hrw, rfl⟩
  | rejected | served | panicked => simpa [breakAct] using h

/-- `MiddlewareKeyed` of the circuit breaker, with how each object that the factory returns answers an `Allow` -/
def circuitBreaker (cfg : BreakerOptions ρ) (next : ρ → Behaviour) (keyFn : ρ → κ)
    (breaker : ℕ → List (BreakerCall ρ) → Option GoError) : Protocol κ ρ (BreakerCall ρ) BreakPc BreakInput where
  key := keyFn
  outside := skips cfg
  pass := .serving
  enter := .located
  act n r p calls a := breakAct cfg next (breaker n) r calls p a
  apart r
    | .serving, .finish _ => if (next r).serve.isSome then .served else .panicked
    | p, _ => p
  client := BreakerCall.request
  client_act n r p calls a := breakAct_request cfg next (breaker n) r calls p a

/-! ## Isolation -/

variable [DecidableEq κ] [DecidableEq ρ]

/-- **Keys do not influence each other.** For both middlewares, every key, and all steps of the requests and answers of
the factory: the factory returns at most once for the key, and is called for it once if it does not panic; a request
calls the limiter or breaker it was given and no other, one `Allow` or `Wait` and after an `Allow` of a breaker at most
one mark. If the factory returns no object for two keys, then what it does for the key, the calls received by the key's
limiter or breaker and where each request with that key has got are those of the steps of these requests alone. -/
theorem keys_isolated :
    (∀ (cfg : Limiting.Options) (keyFn : ℕ → κ) (limiter : ℕ → Limiter) (ops : List (Keyed.Op ℕ LimitInput)) (k : κ),
      Once (run (step (rateLimit cfg keyFn limiter)) start ops) k ∧
      Follows (rateLimit cfg keyFn limiter) (limitInduced cfg) (run (step (rateLimit cfg keyFn limiter)) start ops) ∧
      (Along (step (rateLimit cfg keyFn limiter)) (Unshared (rateLimit cfg keyFn limiter)) start ops →
        Isolated (rateLimit cfg keyFn limiter) ops k)) ∧
    (∀ (cfg : BreakerOptions ρ) (next : ρ → Behaviour) (keyFn : ρ → κ)
      (breaker : ℕ → List (BreakerCall ρ) → Option GoError) (ops : List (Keyed.Op ρ BreakInput)) (k : κ),
      Once (run (step (circuitBreaker cfg next keyFn breaker)) start ops) k ∧
      Follows (circuitBreaker cfg next keyFn breaker) (breakInduced cfg next)
        (run (step (circuitBreaker cfg next keyFn breaker)) start ops) ∧
      (Along (step (circuitBreaker cfg next keyFn breaker)) (Unshared (circuitBreaker cfg next keyFn breaker))
          start ops →
        Isolated (circuitBreaker cfg next keyFn breaker) ops k)) := by
  constructor
  · intro cfg keyFn limiter ops k
    refine ⟨once_run _ ops k, ?_, fun hops => isolated _ hops k⟩
    exact follows_run (fun _ => rfl) (fun n r p calls a => limitAct_induced cfg (limiter n) r calls p a) ops
  · intro cfg next keyFn breaker ops k
    refine ⟨once_run _ ops k, ?_, fun hops => isolated _ hops k⟩
    exact follows_run (fun _ => rfl) (fun n r p calls a => breakAct_induced cfg next (breaker n) r calls p a) ops

/-! The key of a request is its parity; a limiter admits one request. -/

def parity : Protocol ℕ ℕ LimiterCall LimitPc LimitInput :=
  rateLimit ⟨false, Limiting.defaultErrorHandler, none⟩ (· % 2) fun _ =>
    ⟨fun calls => (calls.length ≤ 1, none), fun _ _ _ => none⟩

/-- all steps of a request that finds no object, until it has called `Allow` -/
def first (r : ℕ) (answer : Option ℕ) : List (Keyed.Op ℕ LimitInput) :=
  [.arrive r, .get r none, .get r none, .get r answer, .get r none, .get r none, .act r (.call r)]

/-- request 1 comes while request 0 has the mutex, and request 2 when its key has a limiter -/
def threeRequests : List (Keyed.Op ℕ LimitInput) :=
  [.arrive 0, .get 0 none, .arrive 1, .get 1 none, .get 0 none, .get 0 (some 7), .get 1 none, .get 0 none, .get 0 none,
    .act 0 (.call 0), .get 1 none, .get 1 none, .get 1 (some 8), .get 1 none, .get 1 none, .act 1 (.call 1),
    .arrive 2, .get 2 none, .get 2 none, .get 2 none, .act 2 (.call 2)]

theorem threeRequests_isolated : Isolated parity threeRequests 0 ∧
    (run (step parity) start threeRequests).heap 7 = [.allow 0 0, .allow 2 2] ∧
    (run (step parity) start threeRequests).pc 1 = some (.holds 8 .serving) :=
  ⟨((keys_isolated (ρ := ℕ)).1 _ _ _ threeRequests 0).2.2 (by decide), by decide, by decide⟩

/-- **Other factories.** One that returns one limiter for two keys: request 1 is rejected, and alone it is not. One that
panics: it is called again for the key. -/
theorem shared_and_panicking :
    (run (step parity) start (first 0 (some 7) ++ first 1 (some 7))).pc 1 =
      some (.holds 7 (.rejected (Limiting.defaultErrorHandler 1 none))) ∧
    (alone parity 1 (first 0 (some 7) ++ first 1 (some 7))).pc 1 = some (.holds 7 .serving) ∧
    (run (step parity) start (first 0 none ++ first 2 (some 7))).made = [(0, none), (0, some 7)] := by
  decide

end LuluExt.Http.PerKey
