/-
A request behind a circuit breaker, for any breaker: `Allow`, the protected call, and one mark for its outcome.

`protect` is what `Execute` and the transport middlewares have in common. It keeps the calls of the breaker that
returned, so that `Paired` can say what the contract asks for: an admitted request is followed by exactly one mark, and
the mark says failure exactly when the request failed. A panic, of the protected call or of a mark, leaves the breaker
at once: there is no deferred mark.
-/
import LuluExt.CircuitBreaker.Basic

namespace LuluExt.CircuitBreaker

variable {σ α : Type}

/-- a breaker with states `σ`, as its callers see it; `none` is a mark that panics -/
structure Api (σ : Type) where
  allow : σ → Option GoError × σ
  markSuccess : σ → Option σ
  markFailure : σ → Option σ

inductive BreakerCall where
  | allow (admitted : Bool)
  | markSuccess
  | markFailure
deriving DecidableEq, Repr

def Api.mark (api : Api σ) (failed : Bool) (s : σ) : Option σ := if failed then api.markFailure s else api.markSuccess s

def BreakerCall.mark (failed : Bool) : BreakerCall := if failed then .markFailure else .markSuccess

/-- a request that has left the breaker; it left by a panic when there is no result -/
structure Served (α σ : Type) where
  calls : List BreakerCall
  result : Option α
  state : σ

/-- `call` is what the protected call comes to, `none` for a panic; `rejected` answers for it when it is not admitted -/
def protect (api : Api σ) (s : σ) (rejected : GoError → Option α) (call : Option α) (isFailure : α → Bool) :
    Served α σ :=
  match api.allow s with
  | (some e, s) => ⟨[.allow false], rejected e, s⟩
  | (none, s) =>
    match call with
    | none => ⟨[.allow true], none, s⟩
    | some r =>
      match api.mark (isFailure r) s with
      | none => ⟨[.allow true], none, s⟩
      | some s' => ⟨[.allow true, .mark (isFailure r)], some r, s'⟩

def Served.failed (x : Served α σ) (fails : α → Bool) : Bool :=
  match x.result with
  | none => true
  | some r => fails r

/-- no admission, or one and exactly one mark after it, of the outcome observed -/
def Served.Paired (x : Served α σ) (fails : α → Bool) : Prop :=
  x.calls = [] ∨ x.calls = [.allow false] ∨ x.calls = [.allow true, .mark (x.failed fails)]

instance (x : Served α σ) (fails : α → Bool) : Decidable (x.Paired fails) := by unfold Served.Paired; infer_instance

theorem mark_injective {f g : Bool} (h : BreakerCall.mark f = BreakerCall.mark g) : f = g := by
  revert f g
  decide

/-- **Pairing.** -/
theorem protect_paired_iff (api : Api σ) (s : σ) (rejected : GoError → Option α) (call : Option α)
    (isFailure fails : α → Bool) :
    (protect api s rejected call isFailure).Paired fails ↔
      (api.allow s).1 ≠ none ∨
        ∃ r, call = some r ∧ isFailure r = fails r ∧ (api.mark (isFailure r) (api.allow s).2).isSome := by
  unfold protect
  rcases api.allow s with ⟨_ | e, s'⟩
  · cases call with
    | none => simp [Served.Paired]
    | some r =>
      cases hm : api.mark (isFailure r) s' with
      | none => simp [Served.Paired, hm]
      | some s'' =>
        simp only [Served.Paired, Served.failed, hm, Option.isSome_some, and_true, ne_eq, not_true_eq_false, false_or,
          Option.some.injEq, exists_eq_left']
        constructor
        · intro h
          exact mark_injective (by simpa using h)
        · intro h
          simp [h]
  · simp [Served.Paired]

def execute (api : Api σ) (s : σ) (fn : FnResult) : Served (Option GoError) σ :=
  protect api s (fun e => some (some e)) fn.returned Option.isSome

end LuluExt.CircuitBreaker
