/-
The middlewares of a server: when `Use` registers them, and when the chain is made of them.

The servers of http3, webtransport and webrtc make the chain in their constructor, while `Use` may be called until
`Start`: it appends to a list that nobody reads any more. The websocket server has the same list and the same `Use`, and
makes its chain in `Start`. Middlewares are names here, and a statement about handlers is one about every meaning that
the names can have.
-/
import Mathlib.Tactic

namespace LuluExt.Use

variable {η μ : Type}

abbrev Middleware (η : Type) := η → η

/-- `for i := len(ms) - 1; i >= 0; i-- { h = ms[i](h) }` -/
def chain (ms : List (Middleware η)) (h : η) : η := ms.foldr (fun m h => m h) h

inductive Kind where
  | http3
  | webtransport
  | webrtc
  | websocket
deriving DecidableEq, Repr

structure Server (η : Type) where
  kind : Kind
  router : η
  filters : List (Middleware η)
  middlewares : List (Middleware η)
  /-- `Server.Handler`, as the constructor leaves it -/
  handler : η

def Server.use (s : Server η) (ms : List (Middleware η)) : Server η := { s with middlewares := s.middlewares ++ ms }

/-- what an option can do to the chain: `WithFilter`, or calls of `Use` -/
inductive ServerOption (α : Type) where
  | withFilter (filters : List α)
  | use (ms : List α)

def ServerOption.map {α β : Type} (f : α → β) : ServerOption α → ServerOption β
  | .withFilter filters => .withFilter (filters.map f)
  | .use ms => .use (ms.map f)

def applyOption {α : Type} (o : List α × List α) : ServerOption α → List α × List α
  | .withFilter filters => (filters, o.2)
  | .use ms => (o.1, o.2 ++ ms)

def options {α : Type} (opts : List (ServerOption α)) : List α × List α := opts.foldl applyOption ([], [])

/-- what a server has around its chain: in http3 its filters and the filter that sets the deadline -/
def outer (kind : Kind) (filters : List (Middleware η)) (filter : Middleware η) (h : η) : η :=
  match kind with
  | .http3 => chain filters (filter h)
  | .webtransport => h
  | .webrtc => h
  | .websocket => h

def newServer (kind : Kind) (filter : Middleware η) (router : η) (opts : List (ServerOption (Middleware η))) :
    Server η :=
  let o := options opts
  ⟨kind, router, o.1, o.2,
    match kind with
    | .websocket => router
    | _ => outer kind o.1 filter (chain o.2 router)⟩

def Server.start (s : Server η) : η :=
  match s.kind with
  | .websocket => chain s.middlewares s.router
  | _ => s.handler

/-- a server, its options, and the calls of `Use` between its construction and its start -/
structure Deployment (μ : Type) where
  kind : Kind
  opts : List (ServerOption μ)
  uses : List (List μ)

def Deployment.serve (d : Deployment μ) (den : μ → Middleware η) (filter : Middleware η) (router : η) : η :=
  ((d.uses.map (List.map den)).foldl Server.use
    (newServer d.kind filter router (d.opts.map (ServerOption.map den)))).start

/-- every middleware that was registered, in that order, around the router -/
def Deployment.intended (d : Deployment μ) (den : μ → Middleware η) (filter : Middleware η) (router : η) : η :=
  outer d.kind ((options d.opts).1.map den) filter (chain (((options d.opts).2 ++ d.uses.flatten).map den) router)

/-! ## The chain -/

theorem chain_cons (ms : List μ) (h : List μ) : chain (ms.map List.cons) h = ms ++ h := by
  induction ms with
  | nil => rfl
  | cons m ms ih => simpa [chain] using ih

theorem foldl_applyOption {α β : Type} (f : α → β) (opts : List (ServerOption α)) (o : List α × List α) :
    (opts.map (ServerOption.map f)).foldl applyOption (o.1.map f, o.2.map f) =
      ((opts.foldl applyOption o).1.map f, (opts.foldl applyOption o).2.map f) := by
  induction opts generalizing o with
  | nil => rfl
  | cons opt opts ih =>
    cases opt with
    | withFilter filters => exact ih (filters, o.2)
    | use ms =>
      have hnext := ih (o.1, o.2 ++ ms)
      rw [List.map_append] at hnext
      exact hnext

theorem options_map {α β : Type} (f : α → β) (opts : List (ServerOption α)) :
    options (opts.map (ServerOption.map f)) = ((options opts).1.map f, (options opts).2.map f) :=
  foldl_applyOption f opts ([], [])

theorem foldl_use (s : Server η) (uses : List (List (Middleware η))) :
    uses.foldl Server.use s = { s with middlewares := s.middlewares ++ uses.flatten } := by
  induction uses generalizing s with
  | nil => simp
  | cons ms uses ih =>
    rw [List.foldl_cons, ih]
    simp [Server.use]

theorem serve_eq (d : Deployment μ) (den : μ → Middleware η) (filter : Middleware η) (router : η) :
    d.serve den filter router =
      outer d.kind ((options d.opts).1.map den) filter (chain (((options d.opts).2 ++
        if d.kind = .websocket then d.uses.flatten else []).map den) router) := by
  obtain ⟨kind, opts, uses⟩ := d
  cases kind <;>
    simp [Deployment.serve, foldl_use, Server.start, newServer, options_map, outer]

/-- **When `Use` takes effect.** The handler that is served is the chain of all middlewares that were registered, in
that order and inside the server's own filters, if and only if the server is the websocket server or no middleware was
registered after its construction. -/
theorem use_iff (d : Deployment μ) :
    (∀ (η : Type) (den : μ → Middleware η) (filter : Middleware η) (router : η),
      d.serve den filter router = d.intended den filter router) ↔ d.kind = .websocket ∨ d.uses.flatten = [] := by
  constructor
  · intro hserved
    by_cases hkind : d.kind = .websocket
    · exact Or.inl hkind
    · -- a handler that tells the names of its layers
      have hnames := hserved (List μ) List.cons id []
      rw [serve_eq, Deployment.intended, chain_cons, chain_cons] at hnames
      right
      cases hk : d.kind with
      | websocket => exact absurd hk hkind
      | http3 => simpa [outer, hk, chain_cons] using hnames
      | webtransport | webrtc => simpa [outer, hk] using hnames
  · intro hcase η den filter router
    rw [serve_eq, Deployment.intended]
    split
    case isTrue => rfl
    case isFalse hkind => rw [hcase.resolve_left hkind]

/-- the names of the layers that a request passes on its way to the router -/
def Deployment.layers (d : Deployment String) : List String := d.serve List.cons (List.cons "timeout") ["router"]

/-- **Unused middlewares.** An authentication that is registered between construction and start is not on the way to the
router, on any of the three servers; on the websocket server it is. -/
theorem unused_middlewares :
    (Deployment.mk .http3 [.withFilter ["cors"]] [["auth"]]).layers = ["cors", "timeout", "router"] ∧
    (Deployment.mk .webtransport [] [["auth"]]).layers = ["router"] ∧
    (Deployment.mk .webrtc [] [["auth"]]).layers = ["router"] ∧
    (Deployment.mk .websocket [] [["auth"]]).layers = ["auth", "router"] := by
  decide

end LuluExt.Use
