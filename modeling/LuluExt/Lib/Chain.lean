/-
Chains of middlewares, for any notion of middleware that makes a handler of a handler, in any monad.

`chain` makes one middleware of a list and `enter` is what a middleware makes of the next handler. `Lawful` says that
chains are a monoid which acts on handlers: the empty chain does nothing, the first middleware of a chain gets the rest
of it, and a chain of chains is the chain of all. A chain that is a fold of `enter` from the end is lawful
(`lawful_of_foldrM`).
-/
import Mathlib.Tactic

namespace LuluExt.Chain

variable {M : Type → Type} [Monad M] {μ H : Type}

structure Lawful (chain : List μ → μ) (enter : μ → H → M H) : Prop where
  empty : ∀ h, enter (chain []) h = pure h
  /-- the first one is entered first, with the remaining chain as its next -/
  first : ∀ m ms h, enter (chain (m :: ms)) h = enter (chain ms) h >>= enter m
  append : ∀ xs ys h, enter (chain (xs ++ ys)) h = enter (chain [chain xs, chain ys]) h

theorem lawful_of_foldrM [LawfulMonad M] {chain : List μ → μ} {enter : μ → H → M H}
    (hchain : ∀ ms h, enter (chain ms) h = ms.foldrM enter h) : Lawful chain enter where
  empty h := by rw [hchain, List.foldrM_nil]
  first m ms h := by rw [hchain, hchain, List.foldrM_cons]
  append xs ys h := by
    have hxs : enter (chain xs) = fun next => xs.foldrM enter next := funext (hchain xs)
    calc enter (chain (xs ++ ys)) h = ys.foldrM enter h >>= fun next => xs.foldrM enter next := by
          rw [hchain, List.foldrM_append]
      _ = enter (chain ys) h >>= enter (chain xs) := by rw [hchain ys, hxs]
      _ = enter (chain [chain xs, chain ys]) h := by
          rw [hchain [chain xs, chain ys], List.foldrM_cons, List.foldrM_cons, List.foldrM_nil, pure_bind]

end LuluExt.Chain
