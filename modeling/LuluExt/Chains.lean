/-
Chains of middlewares: `Chain` and `wrapHandler` of the HTTP server, `Chain` of the gRPC server, and
`ChainPublishMiddleware` and `ChainSubscriberMiddleware` of the broker.

A call may change the world, return or panic, and a caller may recover from a panic: handlers and middlewares are any
functions into `Act`, so a middleware can call its next any number of times, or not at all. A function value can be nil:
the HTTP server and the gRPC chain call it and panic, the broker leaves it out.

`Chain` of the gRPC server returns nil for no interceptors. That is no interceptor at all to the server, but not to
another `Chain`, which calls it. The former is assumed of grpc-go, whose server `Grpc.serve` stands for.

- `http_lawful`, `wrapHandler_eq`, `publish_lawful`, `subscriber_lawful`: these chains are lawful;
- `serve_chain`: the gRPC chain is entered in the order of the list;
- `grpc_append_iff`: it is the chain of two chains exactly when neither is empty;
- `chains_iff`: all of them; `empty_chain_panics`: a gRPC chain of an empty one and another.
-/
import LuluExt.Lib.Chain
import LuluExt.Lib.Go

namespace LuluExt.Chains

open LuluExt.Chain

inductive Panic where
  | nilCall
  | other (value : String)
deriving DecidableEq, Repr

/-- a call in a world `W`, which is left as it is when the call panics -/
abbrev Act (W : Type) := ExceptT Panic (StateM W)

variable {W H : Type}

/-- a middleware of handlers `H`; none is nil -/
abbrev Middleware (W H : Type) := Option (H → Act W H)

/-! ## HTTP -/

namespace Http

def enter (m : Middleware W H) (next : H) : Act W H :=
  match m with
  | none => throw .nilCall
  | some m => m next

/-- `for i := len(middlewares) - 1; i >= 0; i-- { next = middlewares[i](next) }` -/
def chain (middlewares : List (Middleware W H)) : Middleware W H := some fun next => middlewares.foldrM enter next

def wrapHandler (middlewares : List (Middleware W H)) (handler : H) : Act W H :=
  if middlewares.length = 0 then pure handler else middlewares.foldrM enter handler

end Http

theorem http_lawful : Lawful (Http.chain (W := W) (H := H)) Http.enter := lawful_of_foldrM fun _ _ => rfl

theorem wrapHandler_eq (middlewares : List (Middleware W H)) (handler : H) :
    Http.wrapHandler middlewares handler = Http.enter (Http.chain middlewares) handler := by
  unfold Http.wrapHandler
  split_ifs with h
  · rw [List.length_eq_zero_iff.1 h]
    rfl
  · rfl

/-! ## Broker -/

namespace Broker

def enter (m : Middleware W H) (next : H) : Act W H :=
  match m with
  | none => pure next
  | some m => m next

def chainMiddleware (h : H) (mws : List (Middleware W H)) : Act W H :=
  if mws.length = 0 then pure h else mws.foldrM enter h

def chain (mws : List (Middleware W H)) : Middleware W H := some fun h => chainMiddleware h mws

abbrev PublishHandler (W C M : Type) := C → String → M → Act W (Option GoError)

abbrev Handler (W C E : Type) := C → E → Act W (Option GoError)

def chainPublishMiddleware {C M : Type} (h : PublishHandler W C M)
    (mws : List (Middleware W (PublishHandler W C M))) : Act W (PublishHandler W C M) :=
  chainMiddleware h mws

def chainSubscriberMiddleware {C E : Type} (h : Handler W C E) (mws : List (Middleware W (Handler W C E))) :
    Act W (Handler W C E) :=
  chainMiddleware h mws

end Broker

theorem chainMiddleware_eq (h : H) (mws : List (Middleware W H)) :
    Broker.chainMiddleware h mws = mws.foldrM Broker.enter h := by
  unfold Broker.chainMiddleware
  split_ifs with hlength
  · rw [List.length_eq_zero_iff.1 hlength]
    rfl
  · rfl

theorem broker_lawful : Lawful (Broker.chain (W := W) (H := H)) Broker.enter :=
  lawful_of_foldrM fun mws h => chainMiddleware_eq h mws

theorem publish_lawful {C M : Type} :
    Lawful (fun mws => some fun h => Broker.chainPublishMiddleware (W := W) (C := C) (M := M) h mws) Broker.enter :=
  broker_lawful

theorem subscriber_lawful {C E : Type} :
    Lawful (fun mws => some fun h => Broker.chainSubscriberMiddleware (W := W) (C := C) (E := E) h mws) Broker.enter :=
  broker_lawful

/-! ## gRPC -/

section

variable {C Q I R : Type}

abbrev UnaryHandler (W C Q R : Type) := C → Q → Act W R

/-- a unary interceptor: context, request, info and handler -/
abbrev Interceptor (W C Q I R : Type) := C → Q → I → UnaryHandler W C Q R → Act W R

namespace Grpc

def call (interceptor : Option (Interceptor W C Q I R)) (info : I) (next : UnaryHandler W C Q R) :
    UnaryHandler W C Q R :=
  match interceptor with
  | none => fun _ _ => throw .nilCall
  | some f => fun ctx req => f ctx req info next

def chain : List (Option (Interceptor W C Q I R)) → Option (Interceptor W C Q I R)
  | [] => none
  | [m] => m
  | middlewares => some fun ctx req info handler =>
      middlewares.foldr (fun m next => call m info next) handler ctx req

/-- what the server of grpc-go is assumed to do with its interceptor: one that is nil is left out -/
def serve (info : I) (interceptor : Option (Interceptor W C Q I R)) (handler : UnaryHandler W C Q R) :
    UnaryHandler W C Q R :=
  match interceptor with
  | none => handler
  | some f => fun ctx req => f ctx req info handler

end Grpc

variable (info : I)

/-- **Entered in order**, each with the remaining chain as its next. -/
theorem serve_chain (ms : List (Interceptor W C Q I R)) (h : UnaryHandler W C Q R) :
    Grpc.serve info (Grpc.chain (ms.map some)) h = ms.foldr (fun f next ctx req => f ctx req info next) h := by
  match ms with
  | [] => rfl
  | [m] => rfl
  | m :: m' :: ms =>
    funext ctx req
    simp only [List.map_cons, Grpc.chain, List.foldr_cons, List.foldr_map]
    rfl

theorem chain_ne_none {ms : List (Interceptor W C Q I R)} (hne : ms ≠ []) :
    ∃ f, Grpc.chain (ms.map some) = some f := by
  match ms with
  | [] => exact absurd rfl hne
  | [m] => exact ⟨m, rfl⟩
  | m :: m' :: ms => exact ⟨_, rfl⟩

theorem serve_pair (a b : Option (Interceptor W C Q I R)) (h : UnaryHandler W C Q R) :
    Grpc.serve info (Grpc.chain [a, b]) h = Grpc.call a info (Grpc.call b info h) := rfl

theorem grpc_append {xs ys : List (Interceptor W C Q I R)} (hxs : xs ≠ []) (hys : ys ≠ [])
    (h : UnaryHandler W C Q R) : Grpc.serve info (Grpc.chain ((xs ++ ys).map some)) h =
      Grpc.serve info (Grpc.chain [Grpc.chain (xs.map some), Grpc.chain (ys.map some)]) h := by
  obtain ⟨f, hf⟩ := chain_ne_none hxs
  obtain ⟨g, hg⟩ := chain_ne_none hys
  have hcall : ∀ (k : Interceptor W C Q I R) next, Grpc.call (some k) info next = Grpc.serve info (some k) next :=
    fun _ _ => rfl
  rw [serve_pair, hf, hg, hcall, hcall, ← hf, ← hg, serve_chain, serve_chain, serve_chain, List.foldr_append]

def transparent : Interceptor W C Q I R := fun ctx req _ next => next ctx req

theorem serve_transparent (n : ℕ) (h : UnaryHandler W C Q R) :
    Grpc.serve info (Grpc.chain ((List.replicate n transparent).map some)) h = h := by
  rw [serve_chain]
  induction n with
  | zero => rfl
  | succ n ih =>
    rw [List.replicate_succ, List.foldr_cons, ih]
    rfl

theorem serve_chain_cons (f : Interceptor W C Q I R) (ms : List (Interceptor W C Q I R)) (h : UnaryHandler W C Q R) :
    Grpc.serve info (Grpc.chain ((f :: ms).map some)) h =
      fun ctx req => f ctx req info (Grpc.serve info (Grpc.chain (ms.map some)) h) := by
  rw [serve_chain, serve_chain, List.foldr_cons]

theorem return_ne_throw [Inhabited W] [Inhabited C] [Inhabited Q] [Inhabited R] :
    (fun _ _ => pure default : UnaryHandler W C Q R) ≠ fun _ _ => throw .nilCall := by
  intro h
  have hrun := congrArg Prod.fst (congrFun (congrFun (congrFun h default) default) default)
  cases hrun

/-- **The gRPC chain of two chains** is the chain of all, for all lists of these lengths, exactly when neither is
empty. -/
theorem grpc_append_iff [Inhabited W] [Inhabited C] [Inhabited Q] [Inhabited R] (m n : ℕ) :
    (∀ xs ys : List (Interceptor W C Q I R), xs.length = m → ys.length = n → ∀ h,
      Grpc.serve info (Grpc.chain ((xs ++ ys).map some)) h =
        Grpc.serve info (Grpc.chain [Grpc.chain (xs.map some), Grpc.chain (ys.map some)]) h) ↔ 0 < m ∧ 0 < n := by
  constructor
  · intro hall
    have hpair := hall (.replicate m transparent) (.replicate n transparent) List.length_replicate
      List.length_replicate fun _ _ => pure default
    rw [← List.replicate_add, serve_transparent] at hpair
    constructor
    · rcases Nat.eq_zero_or_pos m with rfl | hm
      · -- the empty chain is called first
        exact absurd hpair return_ne_throw
      · exact hm
    · rcases Nat.eq_zero_or_pos n with rfl | hn
      · rcases Nat.eq_zero_or_pos m with rfl | hm
        · exact absurd hpair return_ne_throw
        · -- the other one passes the call on to it
          have hserve := serve_transparent info m (Grpc.call none info fun _ _ => pure default : UnaryHandler W C Q R)
          exact absurd (hpair.trans hserve) return_ne_throw
      · exact hn
  · rintro ⟨hm, hn⟩ xs ys hxs hys h
    exact grpc_append info (List.ne_nil_of_length_pos (hxs ▸ hm)) (List.ne_nil_of_length_pos (hys ▸ hn)) h

/-- **When chains are a monoid.** The chains of the HTTP server and of the broker are lawful for all lists; the gRPC
chain of no interceptors is none, and each interceptor is entered with the chain of the others as its next; and the gRPC
chain of two chains is the chain of all, for all lists of two lengths, if and only if neither is zero. -/
theorem chains_iff [Inhabited W] [Inhabited C] [Inhabited Q] [Inhabited R] (M E : Type) (m n : ℕ) :
    (Lawful (Http.chain (W := W) (H := H)) Http.enter ∧
      (∀ (middlewares : List (Middleware W H)) handler,
        Http.wrapHandler middlewares handler = Http.enter (Http.chain middlewares) handler)) ∧
    Lawful (fun mws => some fun h => Broker.chainPublishMiddleware (W := W) (C := C) (M := M) h mws) Broker.enter ∧
    Lawful (fun mws => some fun h => Broker.chainSubscriberMiddleware (W := W) (C := C) (E := E) h mws) Broker.enter ∧
    (∀ h : UnaryHandler W C Q R, Grpc.serve info (Grpc.chain []) h = h) ∧
    (∀ (f : Interceptor W C Q I R) ms h, Grpc.serve info (Grpc.chain ((f :: ms).map some)) h =
      fun ctx req => f ctx req info (Grpc.serve info (Grpc.chain (ms.map some)) h)) ∧
    ((∀ xs ys : List (Interceptor W C Q I R), xs.length = m → ys.length = n → ∀ h,
      Grpc.serve info (Grpc.chain ((xs ++ ys).map some)) h =
        Grpc.serve info (Grpc.chain [Grpc.chain (xs.map some), Grpc.chain (ys.map some)]) h) ↔ 0 < m ∧ 0 < n) :=
  ⟨⟨http_lawful, wrapHandler_eq⟩, publish_lawful, subscriber_lawful, fun _ => rfl, serve_chain_cons info,
    grpc_append_iff info m n⟩

end

/-- **An empty chain in a chain**: the interceptor alone hands the request 7 to the handler, which returns it; beside an
empty chain, on either side, the call panics. -/
theorem empty_chain_panics :
    let f : Interceptor ℕ Unit ℕ Unit ℕ := transparent
    let h : UnaryHandler ℕ Unit ℕ ℕ := fun _ req => pure req
    ((Grpc.serve () (Grpc.chain [some f]) h () 7).run 0).1 = .ok 7 ∧
    ((Grpc.serve () (Grpc.chain [Grpc.chain [], Grpc.chain [some f]]) h () 7).run 0).1 = .error .nilCall ∧
    ((Grpc.serve () (Grpc.chain [Grpc.chain [some f], Grpc.chain []]) h () 7).run 0).1 = .error .nilCall :=
  ⟨rfl, rfl, rfl⟩

end LuluExt.Chains
