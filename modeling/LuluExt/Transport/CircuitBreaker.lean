/-
The circuit-breaker middlewares of the HTTP and gRPC servers, and `Execute` of the hystrix breaker: which requests
report exactly one outcome, and the right one.

All of them are `protect` with their own idea of a failure. HTTP judges the status its recorder took down last; gRPC
judges the status code of the error, by default the codes from Internal (13) on, which leaves out Unknown (2), the code
of every error without a status.
-/
import LuluExt.CircuitBreaker.Protect
import LuluExt.CircuitBreaker.HystrixRecovery
import LuluExt.Transport.Http
import LuluExt.Transport.Grpc.Status

namespace LuluExt

open CircuitBreaker

variable {σ ρ α : Type}

/-! ## HTTP -/

namespace Http

/-- `options` of the circuit-breaker middleware; requests have type `ρ` -/
structure BreakerOptions (ρ : Type) where
  /-- none is the default: every status from 500 on -/
  failureStatus : Option (List ℤ)
  errorHandler : ρ → GoError → Behaviour
  skipFunc : Option (ρ → Bool)

/-- `http.Error(w, "Service Unavailable", http.StatusServiceUnavailable)` -/
def defaultErrorHandler (_ : ρ) (_ : GoError) : Behaviour := ⟨[.header 503 false, .body], false⟩

def defaultOptions : BreakerOptions ρ := ⟨none, defaultErrorHandler, none⟩

def isFailure (cfg : BreakerOptions ρ) (statusCode : ℤ) : Bool :=
  match cfg.failureStatus with
  | some codes => codes.contains statusCode
  | none => decide (statusCode ≥ 500)

def skips (cfg : BreakerOptions ρ) (r : ρ) : Bool :=
  match cfg.skipFunc with
  | some f => f r
  | none => false

/-- `Middleware`; skipped and rejected requests write to the server's writer, whose recorder nobody reads -/
def breakerMiddleware (api : Api σ) (cfg : BreakerOptions ρ) (next : ρ → Behaviour) (r : ρ) (s : σ) :
    Served StatusRecorder σ :=
  if skips cfg r then ⟨[], (next r).serve, s⟩
  else
    protect api s (fun e => (cfg.errorHandler r e).serve) (next r).serve (fun rw => isFailure cfg rw.status)

def observedFailure (cfg : BreakerOptions ρ) (rw : StatusRecorder) : Bool := isFailure cfg rw.final

theorem middleware_paired_iff (api : Api σ) (cfg : BreakerOptions ρ) (next : ρ → Behaviour) (r : ρ) (s : σ) :
    (breakerMiddleware api cfg next r s).Paired (observedFailure cfg) ↔
      skips cfg r ∨ (api.allow s).1 ≠ none ∨
        ((next r).serve.isSome ∧
          isFailure cfg (lastStatus (next r).writes) = isFailure cfg (firstStatus (next r).writes) ∧
          (api.mark (isFailure cfg (lastStatus (next r).writes)) (api.allow s).2).isSome) := by
  unfold breakerMiddleware
  by_cases hskip : skips cfg r
  · rw [if_pos hskip]
    exact ⟨fun _ => .inl hskip, fun _ => .inl rfl⟩
  simp only [hskip, Bool.false_eq_true, if_false, false_or, protect_paired_iff]
  apply or_congr Iff.rfl
  cases hserve : (next r).serve with
  | none => simp
  | some w =>
    obtain ⟨hlast, hfirst⟩ := serve_spec hserve
    simp [observedFailure, hlast, hfirst]

end Http

/-! ## gRPC -/

namespace Grpc

structure BreakerOptions where
  /-- none is the default: every code from Internal on -/
  failureCodes : Option (List ℕ)
  skipMethods : List String
deriving DecidableEq, Repr

def isFailure (cfg : BreakerOptions) (err : Option Error) : Bool :=
  match err with
  | none => false
  | some e =>
    match cfg.failureCodes with
    | some codes => codes.contains e.code
    | none => decide (e.code ≥ internal)

/-- an interceptor whose handler returns `α` beside the error; `none` is a handler that panics -/
def intercept (api : Api σ) (cfg : BreakerOptions) (nothing : α) (fullMethod : String)
    (handler : Option (α × Option Error)) (s : σ) : Served (α × Option Error) σ :=
  if cfg.skipMethods.contains fullMethod then ⟨[], handler, s⟩
  else
    protect api s (fun _ => some (nothing, some (.status unavailable "circuit breaker is open"))) handler
      (fun r => isFailure cfg r.2)

def unaryInterceptor (api : Api σ) (cfg : BreakerOptions) (fullMethod : String)
    (handler : Option (Option ρ × Option Error)) (s : σ) : Served (Option ρ × Option Error) σ :=
  intercept api cfg none fullMethod handler s

def streamInterceptor (api : Api σ) (cfg : BreakerOptions) (fullMethod : String)
    (handler : Option (Unit × Option Error)) (s : σ) : Served (Unit × Option Error) σ :=
  intercept api cfg () fullMethod handler s

/-- the failures as documented: the configured codes, by default Unknown and the codes from Internal on -/
def documentedFailure (cfg : BreakerOptions) (err : Option Error) : Bool :=
  match err with
  | none => false
  | some e =>
    match cfg.failureCodes with
    | some codes => codes.contains e.code
    | none => decide (e.code = unknown ∨ e.code ≥ internal)

/-- the configured codes are judged as documented, the default ones up to Unknown -/
def Judged (cfg : BreakerOptions) (err : Option Error) : Prop :=
  cfg.failureCodes ≠ none ∨ ∀ e, err = some e → e.code ≠ unknown

theorem isFailure_eq_iff (cfg : BreakerOptions) (err : Option Error) :
    isFailure cfg err = documentedFailure cfg err ↔ Judged cfg err := by
  unfold isFailure documentedFailure Judged
  cases err with
  | none => simp
  | some e =>
    cases hcodes : cfg.failureCodes with
    | some codes => simp
    | none =>
      by_cases hu : e.code = unknown
      · simp [hu, unknown, internal]
      · simp [hu]

theorem intercept_paired_iff (api : Api σ) (cfg : BreakerOptions) (nothing : α) (fullMethod : String)
    (handler : Option (α × Option Error)) (s : σ) :
    (intercept api cfg nothing fullMethod handler s).Paired (fun r => documentedFailure cfg r.2) ↔
      cfg.skipMethods.contains fullMethod ∨ (api.allow s).1 ≠ none ∨
        ∃ r, handler = some r ∧ Judged cfg r.2 ∧ (api.mark (isFailure cfg r.2) (api.allow s).2).isSome := by
  unfold intercept
  by_cases hskip : cfg.skipMethods.contains fullMethod
  · rw [if_pos hskip]
    exact ⟨fun _ => .inl hskip, fun _ => .inl rfl⟩
  · simp only [hskip, Bool.false_eq_true, if_false, false_or, protect_paired_iff, isFailure_eq_iff]

end Grpc

/-! ## Execute of the hystrix breaker -/

namespace Hystrix

def api (allowNow markNow evalNow : ℕ) : Api Breaker where
  allow b := allow b allowNow
  markSuccess b := markSuccess b markNow evalNow
  markFailure b := markFailure b markNow evalNow

theorem execute_eq (b : Breaker) (fn : FnResult) (allowNow markNow evalNow : ℕ) :
    execute b fn allowNow markNow evalNow =
      (.ofReturned (CircuitBreaker.execute (api allowNow markNow evalNow) b fn).result,
        (CircuitBreaker.execute (api allowNow markNow evalNow) b fn).state) := by
  simp only [execute, CircuitBreaker.execute, protect, api]
  rcases allow b allowNow with ⟨_ | e, b'⟩
  · cases fn with
    | nil => cases hm : markSuccess b' markNow evalNow <;> simp [FnResult.returned, Api.mark, hm, FnResult.ofReturned]
    | err e => cases hm : markFailure b' markNow evalNow <;> simp [FnResult.returned, Api.mark, hm, FnResult.ofReturned]
    | panics => rfl
  · rfl

theorem mark_isSome_iff {b : Breaker} (h : 0 < b.ring.buckets.length) (failed : Bool) (allowNow markNow evalNow : ℕ) :
    ((api allowNow markNow evalNow).mark failed b).isSome ↔ b.ring.bucketDuration ≠ 0 := by
  by_cases hd : b.ring.bucketDuration = 0
  · cases failed <;> simp [Api.mark, api, markSuccess_none hd, markFailure_none hd, hd]
  · have hw : b.ring.Wf := ⟨Nat.pos_of_ne_zero hd, h⟩
    cases failed <;> simp [Api.mark, api, markSuccess_eq hw, markFailure_eq hw, hd]

theorem execute_paired_iff {b : Breaker} (h : Sound b) (fn : FnResult) (allowNow markNow evalNow : ℕ) :
    (CircuitBreaker.execute (api allowNow markNow evalNow) b fn).Paired Option.isSome ↔
      (allow b allowNow).1 ≠ none ∨ (fn ≠ .panics ∧ b.ring.bucketDuration ≠ 0) := by
  have hring := (quiet_allow b allowNow).ring_eq
  have hmark : ∀ failed,
      ((api allowNow markNow evalNow).mark failed ((api allowNow markNow evalNow).allow b).2).isSome ↔
        b.ring.bucketDuration ≠ 0 := by
    intro failed
    change ((api allowNow markNow evalNow).mark failed (allow b allowNow).2).isSome ↔ _
    rw [mark_isSome_iff (by rw [hring]; exact h.buckets_pos), hring]
  rw [CircuitBreaker.execute, protect_paired_iff]
  apply or_congr Iff.rfl
  cases fn with
  | nil => simpa [FnResult.returned] using hmark false
  | err e => simpa [FnResult.returned] using hmark true
  | panics => simp [FnResult.returned]

end Hystrix

/-- **When a request reports exactly its outcome.** A request that was admitted is followed by exactly one mark, of the
outcome the client observes, if and only if
- `Execute` (hystrix, any reachable breaker): the function does not panic and the buckets have a duration;
- HTTP: the handler does not panic, the last status it writes is a failure exactly when the first is, the mark returns;
- gRPC, unary and stream: the handler does not panic, failure codes are configured or its error is not Unknown, the
  mark returns. -/
theorem paired_iff_clean (api : Api σ) (s : σ) :
    (∀ b, Hystrix.Reachable b → ∀ fn allowNow markNow evalNow,
      Hystrix.execute b fn allowNow markNow evalNow =
        (.ofReturned (CircuitBreaker.execute (Hystrix.api allowNow markNow evalNow) b fn).result,
          (CircuitBreaker.execute (Hystrix.api allowNow markNow evalNow) b fn).state) ∧
      ((CircuitBreaker.execute (Hystrix.api allowNow markNow evalNow) b fn).Paired Option.isSome ↔
        (Hystrix.allow b allowNow).1 ≠ none ∨ (fn ≠ .panics ∧ b.ring.bucketDuration ≠ 0))) ∧
    (∀ (cfg : Http.BreakerOptions ρ) next r,
      (Http.breakerMiddleware api cfg next r s).Paired (Http.observedFailure cfg) ↔
        Http.skips cfg r ∨ (api.allow s).1 ≠ none ∨
          ((next r).serve.isSome ∧
            Http.isFailure cfg (Http.lastStatus (next r).writes) =
              Http.isFailure cfg (Http.firstStatus (next r).writes) ∧
            (api.mark (Http.isFailure cfg (Http.lastStatus (next r).writes)) (api.allow s).2).isSome)) ∧
    (∀ cfg fullMethod (handler : Option (Option α × Option Grpc.Error)),
      (Grpc.unaryInterceptor api cfg fullMethod handler s).Paired (fun r => Grpc.documentedFailure cfg r.2) ↔
        cfg.skipMethods.contains fullMethod ∨ (api.allow s).1 ≠ none ∨
          ∃ r, handler = some r ∧ Grpc.Judged cfg r.2 ∧
            (api.mark (Grpc.isFailure cfg r.2) (api.allow s).2).isSome) ∧
    (∀ cfg fullMethod handler,
      (Grpc.streamInterceptor api cfg fullMethod handler s).Paired (fun r => Grpc.documentedFailure cfg r.2) ↔
        cfg.skipMethods.contains fullMethod ∨ (api.allow s).1 ≠ none ∨
          ∃ r, handler = some r ∧ Grpc.Judged cfg r.2 ∧
            (api.mark (Grpc.isFailure cfg r.2) (api.allow s).2).isSome) := by
  refine ⟨?_, ?_, ?_, ?_⟩
  · intro b hr fn allowNow markNow evalNow
    exact ⟨Hystrix.execute_eq b fn allowNow markNow evalNow,
      Hystrix.execute_paired_iff hr.sound fn allowNow markNow evalNow⟩
  · intro cfg next r
    exact Http.middleware_paired_iff api cfg next r s
  · intro cfg fullMethod handler
    exact Grpc.intercept_paired_iff api cfg none fullMethod handler s
  · intro cfg fullMethod handler
    exact Grpc.intercept_paired_iff api cfg () fullMethod handler s

def fresh : Hystrix.Breaker := Hystrix.new Hystrix.defaultConfig 0

theorem execute_nil_paired : (CircuitBreaker.execute (Hystrix.api 0 0 0) fresh .nil).Paired Option.isSome :=
  ((paired_iff_clean (ρ := Unit) (α := Unit) (Hystrix.api 0 0 0) fresh).1 fresh ⟨_, 0, [], rfl⟩ .nil 0 0 0).2.2
    (Or.inr ⟨by decide, by decide⟩)

def lateStatus (_ : Unit) : Http.Behaviour := ⟨[.header 200 false, .body, .header 500 false], false⟩

def plainOptions : Http.BreakerOptions Unit := Http.defaultOptions

/-- **Unpaired requests**: a function that panics is never marked; a response sent with 200 is marked as a failure; a
plain Go error is marked as a success by both interceptors. -/
theorem unpaired_requests :
    (CircuitBreaker.execute (Hystrix.api 0 0 0) fresh .panics).calls = [BreakerCall.allow true] ∧
    ¬ (CircuitBreaker.execute (Hystrix.api 0 0 0) fresh .panics).Paired Option.isSome ∧
    (Http.breakerMiddleware (Hystrix.api 0 0 0) plainOptions lateStatus () fresh).calls =
      [.allow true, .markFailure] ∧
    (Http.breakerMiddleware (Hystrix.api 0 0 0) plainOptions lateStatus () fresh).result.map (·.final) =
      some 200 ∧
    ¬ (Http.breakerMiddleware (Hystrix.api 0 0 0) plainOptions lateStatus () fresh).Paired
      (Http.observedFailure plainOptions) ∧
    (Grpc.unaryInterceptor (ρ := Unit) (Hystrix.api 0 0 0) ⟨none, []⟩ "/svc/Do" (some (none, some (.plain ⟨"boom"⟩)))
      fresh).calls = [.allow true, .markSuccess] ∧
    (Grpc.streamInterceptor (Hystrix.api 0 0 0) ⟨none, []⟩ "/svc/Do" (some ((), some (.plain ⟨"boom"⟩))) fresh).calls =
      [.allow true, .markSuccess] ∧
    Grpc.documentedFailure ⟨none, []⟩ (some (.plain ⟨"boom"⟩)) = true := by
  refine ⟨?_, ?_, ?_, ?_, ?_, ?_, ?_, ?_⟩ <;> decide +kernel

end LuluExt
