/-
gRPC status codes, and the errors of handlers as the interceptors see them.
-/
import LuluExt.Lib.Go

namespace LuluExt.Grpc

/-- an error of a handler: with a gRPC status, or any other Go error -/
inductive Error where
  | status (code : ℕ) (message : String)
  | plain (e : GoError)
deriving DecidableEq, Repr

def unknown : ℕ := 2

def internal : ℕ := 13

def unavailable : ℕ := 14

def Error.code : Error → ℕ
  | .status code _ => code
  | .plain _ => unknown

end LuluExt.Grpc
