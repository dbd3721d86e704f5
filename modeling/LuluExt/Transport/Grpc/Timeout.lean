/-
The timeout interceptors of gRPC: a default deadline for a call whose context has none.

All four derive a context with the default timeout, call what they intercept with it, and cancel it when they return, by
a deferred call. For a handler, and for the invoker of a unary call, that is the end of the RPC. The streamer of a
client stream returns when the stream is open, so the stream is cancelled before its user has it.

Time passes, the caller may cancel its own context, and the interceptor takes its steps in between.
-/
import LuluExt.Lib.Run
import LuluExt.Transport.Grpc.Status

namespace LuluExt.GrpcTimeout

open Run
open Grpc (Error)

/-! ## Model -/

inductive Interceptor where
  | unaryServerInterceptor
  | streamServerInterceptor
  | unaryClientInterceptor
  | streamClientInterceptor
deriving DecidableEq, Repr

structure Call where
  interceptor : Interceptor
  defaultTimeout : ℤ
  skipFunc : Option (String → Bool)
  method : String
  /-- the deadline of the context it is called with -/
  deadline : Option ℕ

/-- what is intercepted is called as it is -/
def Call.skips (c : Call) : Bool := c.skipFunc.any fun skipFunc => skipFunc c.method

def Call.derives (c : Call) : Bool := !c.skips && c.deadline.isNone && decide (c.defaultTimeout > 0)

/-- what is returned; `ρ` are responses and client streams -/
structure Result (ρ : Type) where
  resp : Option ρ
  err : Option Error

/-- where the interceptor is; a result that is missing is a panic -/
inductive Pc (ρ : Type) where
  | called
  /-- in the handler, the invoker or the streamer -/
  | running
  | back (r : Result ρ)
  /-- before the deferred call -/
  | returning (r : Option (Result ρ))
  | returned (r : Option (Result ρ))

structure State (ρ : Type) where
  now : ℕ
  pc : Pc ρ
  /-- the deadline of the derived context -/
  deadline : Option ℕ
  cancelled : Bool
  callerDone : Bool
  /-- the RPC has ended, a client stream by its user -/
  ended : Bool

variable {ρ : Type}

def initial : State ρ := ⟨0, .called, none, false, false, false⟩

inductive Op (ρ : Type) where
  | tick (d : ℕ)
  | cancelCaller
  /-- up to the call of what is intercepted -/
  | call
  /-- which returns, or panics -/
  | callee (r : Option (Result ρ))
  | ret
  | deferred
  | finish

def deadlineExceeded : ℕ := 4

def State.ctxErr (s : State ρ) (c : Call) : Bool :=
  s.cancelled || s.callerDone || (s.deadline.any fun d => d ≤ s.now) || (c.deadline.any fun d => d ≤ s.now)

/-- the interceptor of unary calls on a server looks at the context once more -/
def Call.result (c : Call) (s : State ρ) (r : Result ρ) : Result ρ :=
  match c.interceptor with
  | .unaryServerInterceptor =>
    if c.skips = false ∧ r.err = none ∧ s.ctxErr c = true then
      ⟨none, some (.status deadlineExceeded "handler exceeded deadline")⟩
    else r
  | .streamServerInterceptor | .unaryClientInterceptor | .streamClientInterceptor => r

def opens : Option (Result ρ) → Bool
  | some r => r.err.isNone
  | none => false

/-- the end of what is intercepted is that of the RPC, but for a client stream that is open -/
def Call.ends (c : Call) (r : Option (Result ρ)) : Bool :=
  match c.interceptor with
  | .streamClientInterceptor => !opens r
  | .unaryServerInterceptor | .streamServerInterceptor | .unaryClientInterceptor => true

def step (c : Call) (s : State ρ) : Op ρ → State ρ
  | .tick d => { s with now := s.now + d }
  | .cancelCaller => { s with callerDone := true }
  | .call =>
    match s.pc with
    | .called =>
      { s with pc := .running, deadline := if c.derives then some (s.now + c.defaultTimeout.toNat) else none }
    | _ => s
  | .callee r =>
    match s.pc, r with
    | .running, some r => { s with pc := .back r, ended := c.ends (some r) }
    | .running, none => { s with pc := .returning none, ended := true }
    | _, _ => s
  | .ret =>
    match s.pc with
    | .back r => { s with pc := .returning (some (c.result s r)) }
    | _ => s
  | .deferred =>
    match s.pc with
    | .returning r => { s with pc := .returned r, cancelled := s.deadline.isSome }
    | _ => s
  | .finish =>
    match s.pc with
    | .returned _ => { s with ended := true }
    | _ => s

/-- once the derived context is cancelled, the timeout is over, or the RPC is -/
def Good (s : State ρ) : Prop := s.cancelled = true → ∀ d, s.deadline = some d → d ≤ s.now ∨ s.ended = true

/-- no client stream is returned that the deferred call cancels before its time -/
def Careful (c : Call) (s : State ρ) : Op ρ → Prop
  | .deferred => ∀ r d, s.pc = .returning r → s.deadline = some d → c.interceptor = .streamClientInterceptor →
    opens r = true → d ≤ s.now
  | _ => True

/-! ## One step -/

inductive Turn (c : Call) (s : State ρ) : Op ρ → State ρ → Prop where
  | ticked (d : ℕ) : Turn c s (.tick d) { s with now := s.now + d }
  | callerCancelled : Turn c s .cancelCaller { s with callerDone := true }
  | began (hpc : s.pc = .called) : Turn c s .call
      { s with pc := .running, deadline := if c.derives then some (s.now + c.defaultTimeout.toNat) else none }
  | came (hpc : s.pc = .running) (r : Result ρ) :
      Turn c s (.callee (some r)) { s with pc := .back r, ended := c.ends (some r) }
  | panicked (hpc : s.pc = .running) : Turn c s (.callee none) { s with pc := .returning none, ended := true }
  | decided {r : Result ρ} (hpc : s.pc = .back r) : Turn c s .ret { s with pc := .returning (some (c.result s r)) }
  | deferred {r : Option (Result ρ)} (hpc : s.pc = .returning r) :
      Turn c s .deferred { s with pc := .returned r, cancelled := s.deadline.isSome }
  | finished {r : Option (Result ρ)} (hpc : s.pc = .returned r) : Turn c s .finish { s with ended := true }
  | idle {op : Op ρ} (hpc : op = .deferred → ∀ r, s.pc ≠ .returning r) : Turn c s op s

variable {c : Call} {s s' : State ρ} {op : Op ρ}

theorem turn_step (op : Op ρ) : Turn c s op (step c s op) := by
  cases op with
  | tick d => exact .ticked d
  | cancelCaller => exact .callerCancelled
  | call =>
    simp only [step]
    split
    next hpc => exact .began hpc
    next => exact .idle nofun
  | callee r =>
    simp only [step]
    split
    next r hpc => exact .came hpc r
    next hpc => exact .panicked hpc
    next => exact .idle nofun
  | ret =>
    simp only [step]
    split
    next r hpc => exact .decided hpc
    next => exact .idle nofun
  | deferred =>
    simp only [step]
    split
    next r hpc => exact .deferred hpc
    next hpc => exact .idle fun _ => hpc
  | finish =>
    simp only [step]
    split
    next r hpc => exact .finished hpc
    next => exact .idle nofun

def Inv (c : Call) (s : State ρ) : Prop :=
  match s.pc with
  | .called | .running => s.cancelled = false
  | .back r => s.cancelled = false ∧ s.ended = c.ends (some r)
  | .returning r => s.cancelled = false ∧ s.ended = c.ends r
  | .returned _ => True

theorem ends_result (r : Result ρ) : c.ends (some (c.result s r)) = c.ends (some r) := by
  unfold Call.ends Call.result
  cases c.interceptor <;> rfl

theorem ends_none : c.ends (none : Option (Result ρ)) := by
  unfold Call.ends
  cases c.interceptor <;> rfl

theorem inv_turn (hturn : Turn c s op s') (h : Inv c s) : Inv c s' := by
  cases hturn with
  | ticked d | callerCancelled => exact h
  | began hpc =>
    simp only [Inv, hpc] at h
    exact h
  | came hpc r =>
    simp only [Inv, hpc] at h
    exact ⟨h, rfl⟩
  | panicked hpc =>
    simp only [Inv, hpc] at h
    exact ⟨h, ends_none.symm⟩
  | decided hpc =>
    simp only [Inv, hpc] at h
    exact ⟨h.1, h.2.trans (ends_result _).symm⟩
  | deferred hpc => trivial
  | finished hpc => simp only [Inv, hpc]
  | idle => exact h

theorem good_deferred_iff {r : Option (Result ρ)} (hpc : s.pc = .returning r) (hended : s.ended = c.ends r) :
    Good { s with pc := .returned r, cancelled := s.deadline.isSome } ↔ Careful c s .deferred := by
  constructor
  · intro hgood r' d hr hd hstream hopens
    cases hpc.symm.trans hr
    rcases hgood (by simp [hd]) d hd with hle | hend
    · exact hle
    · simp only [hended, Call.ends, hstream, hopens] at hend
      cases hend
  · intro hcareful _ d hd
    cases hends : c.ends r with
    | true => exact Or.inr (hended.trans hends)
    | false =>
      left
      unfold Call.ends at hends
      split at hends
      next hstream => exact hcareful r d hpc hd hstream (by simpa using hends)
      all_goals cases hends

/-- **The deferred call** is the only step that can cancel too early. -/
theorem good_turn_iff (hturn : Turn c s op s') (hinv : Inv c s) (h : Good s) : Good s' ↔ Careful c s op := by
  cases hturn with
  | ticked d =>
    refine iff_of_true (fun hc e he => ?_) trivial
    exact (h hc e he).imp (fun hle => le_trans hle (Nat.le_add_right _ _)) id
  | callerCancelled | decided hpc => exact iff_of_true h trivial
  | began hpc | came hpc r =>
    simp only [Inv, hpc] at hinv
    exact iff_of_true (fun hc => absurd hc (by simp [hinv])) trivial
  | panicked hpc | finished hpc => exact iff_of_true (fun _ _ _ => Or.inr rfl) trivial
  | deferred hpc =>
    simp only [Inv, hpc] at hinv
    exact good_deferred_iff hpc hinv.2
  | idle hpc =>
    refine iff_of_true h ?_
    cases op with
    | deferred => exact fun r d hr => absurd hr (hpc rfl r)
    | _ => trivial

/-! ## Runs -/

theorem inv_initial (c : Call) : Inv c (initial : State ρ) := by simp only [Inv, initial]

theorem good_initial : Good (initial : State ρ) := by
  intro h
  cases h

/-- **When the context lasts.** The derived context is cancelled only after the timeout or the end of the RPC, in every
interleaving, if and only if no stream is returned by the interceptor of client streams before the timeout is over. -/
theorem scope_iff (c : Call) (ops : List (Op ρ)) :
    Always (step c) Good initial ops ↔ Along (step c) (Careful c) initial ops :=
  always_iff_along_of_iff (I := Inv c) (fun _ op h => inv_turn (turn_step op) h)
    (fun _ op hinv h => good_turn_iff (turn_step op) hinv h) (inv_initial c) good_initial ops

def tenSeconds : Call := ⟨.streamClientInterceptor, 10000000000, none, "/chat.Chat/Talk", none⟩

/-- **A stream is cancelled** before its user has it, though it was opened at once. -/
theorem stream_cancelled :
    let s := run (step tenSeconds) initial [.call, .callee (some ⟨some (), none⟩), .ret, .deferred]
    s.cancelled = true ∧ s.ctxErr tenSeconds = true ∧ s.ended = false ∧ s.now = 0 ∧ s.deadline = some 10000000000 := by
  refine ⟨rfl, rfl, rfl, rfl, rfl⟩

end LuluExt.GrpcTimeout
