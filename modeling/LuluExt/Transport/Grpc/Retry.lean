/-
The retry interceptors of gRPC: unary and stream at the server, unary at the client.

Each wraps the handler in `Do`, throws away what `Do` returns and reports the variables its closure has set. A handler's
error that is not to be retried ends the loop as if it were nil, and is reported all the same. But where `Do` stops
before the first attempt the variables have never been set, and the interceptor reports nil.
-/
import LuluExt.Retry
import LuluExt.Transport.Grpc.Status

namespace LuluExt.Grpc

open LuluExt.Retry

variable {ρ : Type}

structure RetryOptions where
  idempotentPrefixes : List String
  retryCodes : List ℕ
  skipMethods : List String
deriving DecidableEq, Repr

def defaultRetryOptions : RetryOptions := ⟨["Get", "List", "Search"], [unavailable], []⟩

def withIdempotentPrefixes (prefixes : List String) (cfg : RetryOptions) : RetryOptions :=
  { cfg with idempotentPrefixes := prefixes }

def withRetryCodes (codes : List ℕ) (cfg : RetryOptions) : RetryOptions := { cfg with retryCodes := codes }

def withSkipMethods (methods : List String) (cfg : RetryOptions) : RetryOptions :=
  { cfg with skipMethods := cfg.skipMethods ++ methods }

def methodName (fullMethod : String) : List Char := (fullMethod.toList.reverse.takeWhile (· ≠ '/')).reverse

def isIdempotent (fullMethod : String) (prefixes : List String) : Bool :=
  prefixes.any fun p => p.toList.isPrefixOf (methodName fullMethod)

def bypasses (cfg : RetryOptions) (fullMethod : String) : Bool :=
  cfg.skipMethods.contains fullMethod || !isIdempotent fullMethod cfg.idempotentPrefixes

/-- the variables of an interceptor, and the results of the calls it has made -/
structure Captured (ρ : Type) where
  lastResp : ρ
  lastErr : Option Error
  calls : List (ρ × Option Error)

/-- one attempt: the handler is called and its results are captured; what `Do` is told -/
def attemptWith (cfg : RetryOptions) (handler : ℕ → ρ × Option Error) (attempt : ℕ) (s : Captured ρ) :
    Option Error × Captured ρ :=
  let result := handler attempt
  let s' : Captured ρ := ⟨result.1, result.2, s.calls ++ [result]⟩
  match result.2 with
  | none => (none, s')
  | some err => (if cfg.retryCodes.contains err.code then some err else none, s')

/-- an interceptor whose handler returns ρ beside the error; `handler k` is what its call number k returns -/
def retrying (r : Retrier Error) (cfg : RetryOptions) (w : World) (nothing : ρ) (fullMethod : String)
    (handler : ℕ → ρ × Option Error) : Captured ρ :=
  if bypasses cfg fullMethod then ⟨(handler 0).1, (handler 0).2, [handler 0]⟩
  else (r.doWith w (attemptWith cfg handler) ⟨nothing, none, []⟩).2

def unaryRetryInterceptor (r : Retrier Error) (cfg : RetryOptions) (w : World) (fullMethod : String)
    (handler : ℕ → Option ρ × Option Error) : Captured (Option ρ) :=
  retrying r cfg w none fullMethod handler

def streamRetryInterceptor (r : Retrier Error) (cfg : RetryOptions) (w : World) (fullMethod : String)
    (handler : ℕ → Unit × Option Error) : Captured Unit :=
  retrying r cfg w () fullMethod handler

def unaryClientRetryInterceptor (r : Retrier Error) (cfg : RetryOptions) (w : World) (method : String)
    (invoker : ℕ → Unit × Option Error) : Captured Unit :=
  retrying r cfg w () method invoker

/-! ## Honesty -/

/-- nil is returned only if the last call was made and returned nil -/
def Captured.Honest (s : Captured ρ) : Prop := s.lastErr = none → ∃ resp, s.calls.getLast? = some (resp, none)

theorem after_attempts (cfg : RetryOptions) (handler : ℕ → ρ × Option Error) (s : Captured ρ) (n : ℕ) :
    after (attemptWith cfg handler) (n + 1) s =
      ⟨(handler n).1, (handler n).2, (after (attemptWith cfg handler) n s).calls ++ [handler n]⟩ := by
  rcases hresult : handler n with ⟨resp, err⟩
  cases err with
  | none | some e => simp [after, attemptWith, hresult]

theorem retrying_honest_iff (r : Retrier Error) (cfg : RetryOptions) (w : World) (nothing : ρ) (fullMethod : String)
    (handler : ℕ → ρ × Option Error) :
    (retrying r cfg w nothing fullMethod handler).Honest ↔ bypasses cfg fullMethod ∨ w.ctxErr 0 = none := by
  unfold retrying
  by_cases hb : bypasses cfg fullMethod
  · simp only [hb, true_or, iff_true]
    intro hnil
    exact ⟨(handler 0).1, by simp [← hnil]⟩
  · simp only [hb, Bool.false_eq_true, if_false, false_or]
    obtain ⟨n, -, hzero, hmade⟩ := doWith_spec r w (attemptWith cfg handler) ⟨nothing, none, []⟩
    rw [hmade.state]
    cases n with
    | zero =>
      have hdone : w.ctxErr 0 ≠ none := Option.isSome_iff_ne_none.1 (hzero.1 rfl)
      simp [after, Captured.Honest, hdone]
    | succ n =>
      have hctx : w.ctxErr 0 = none := by
        by_contra hdone
        exact absurd (hzero.2 (Option.isSome_iff_ne_none.2 hdone)) (Nat.succ_ne_zero n)
      simp only [hctx, iff_true, after_attempts]
      intro hnil
      exact ⟨(handler n).1, by simp [← hnil]⟩

/-- **When nil is earned.** For each of the three interceptors: a nil error is returned only if the last call was made
and returned nil, if and only if the call is not retried at all or the context is not done before the first attempt. -/
theorem honest_iff_called (r : Retrier Error) (cfg : RetryOptions) (w : World) (fullMethod : String) :
    (∀ handler : ℕ → Option ρ × Option Error, (unaryRetryInterceptor r cfg w fullMethod handler).Honest ↔
      bypasses cfg fullMethod ∨ w.ctxErr 0 = none) ∧
    (∀ handler, (streamRetryInterceptor r cfg w fullMethod handler).Honest ↔
      bypasses cfg fullMethod ∨ w.ctxErr 0 = none) ∧
    (∀ invoker, (unaryClientRetryInterceptor r cfg w fullMethod invoker).Honest ↔
      bypasses cfg fullMethod ∨ w.ctxErr 0 = none) :=
  ⟨fun handler => retrying_honest_iff r cfg w none fullMethod handler,
    fun handler => retrying_honest_iff r cfg w () fullMethod handler,
    fun invoker => retrying_honest_iff r cfg w () fullMethod invoker⟩

/-- **Fabricated success.** With a cancelled context the interceptors return nil, and have called nothing. -/
theorem fabricated_success :
    unaryRetryInterceptor (Retry.new Go.amd64 []) defaultRetryOptions cancelledWorld "/user.Users/GetUser"
      (fun _ => ((some () : Option Unit), some (.status unavailable "down"))) = ⟨none, none, []⟩ ∧
    streamRetryInterceptor (Retry.new Go.amd64 []) defaultRetryOptions cancelledWorld "/user.Users/ListUsers"
      (fun _ => ((), some (.status unavailable "down"))) = ⟨(), none, []⟩ ∧
    unaryClientRetryInterceptor (Retry.new Go.amd64 []) defaultRetryOptions cancelledWorld "/user.Users/GetUser"
      (fun _ => ((), some (.status unavailable "down"))) = ⟨(), none, []⟩ :=
  ⟨rfl, rfl, rfl⟩

end LuluExt.Grpc
