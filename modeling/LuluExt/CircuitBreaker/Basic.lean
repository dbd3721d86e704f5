/-
The circuit-breaker contract: the three states, and the error of a rejected request. Breakers are modelled by state
passing. `nil` is `none`; a panic is the outer `none` of an operation that can panic.
-/
import LuluExt.Lib.Go

namespace LuluExt.CircuitBreaker

inductive State where
  | closed
  | open
  | halfOpen
deriving DecidableEq, Repr

def errCircuitOpen : GoError := ⟨"circuitbreaker: circuit is open"⟩

/-- what a protected function does: return nil, return an error, or panic -/
inductive FnResult where
  | nil
  | err (e : GoError)
  | panics
deriving DecidableEq, Repr

def FnResult.returned : FnResult → Option (Option GoError)
  | .nil => some none
  | .err e => some (some e)
  | .panics => none

def FnResult.ofReturned : Option (Option GoError) → FnResult
  | some none => .nil
  | some (some e) => .err e
  | none => .panics

end LuluExt.CircuitBreaker
