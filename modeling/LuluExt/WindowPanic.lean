/-
Panics of the components with a window.

The options of the hystrix and sres breakers and of the bbr limiter accept any positive window and any positive number
of buckets, one at a time; the duration of a bucket is their quotient, rounded down. Every rotation divides by it. A run
of calls stops at the first panic.

- `short_window_panics`: a window of five nanoseconds, written where the other options have their defaults.
-/
import LuluExt.Lib.Run
import LuluExt.CircuitBreaker.Hystrix
import LuluExt.CircuitBreaker.Sres
import LuluExt.RateLimit.Bbr

namespace LuluExt.WindowPanic

open Run

/-! ## The calls -/

inductive HystrixCall where
  | allow (now : ℕ)
  | markSuccess (now evalNow : ℕ)
  | markFailure (now evalNow : ℕ)
  | state (now : ℕ)

def HystrixCall.perform (b : Hystrix.Breaker) : HystrixCall → Option Hystrix.Breaker
  | .allow now => some (Hystrix.allow b now).2
  | .markSuccess now evalNow => Hystrix.markSuccess b now evalNow
  | .markFailure now evalNow => Hystrix.markFailure b now evalNow
  | .state now => some (Hystrix.pollState b now).2

inductive SresCall where
  | allow (now : ℕ) (draw : ℚ)
  | markSuccess (now : ℕ)
  | markFailure (now : ℕ)
  | state

def SresCall.perform (b : Sres.Breaker) : SresCall → Option Sres.Breaker
  | .allow now draw => (Sres.allow b now draw).map Prod.snd
  | .markSuccess now => Sres.markSuccess b now
  | .markFailure now => Sres.markFailure b now
  | .state => some b

inductive BbrCall where
  | allow (now : ℕ)
  | done (rtt : ℤ) (now : ℕ)

def BbrCall.perform (fl : Go.Float64) (plat : Go.Platform) (l : Bbr.Limiter) : BbrCall → Option Bbr.Limiter
  | .allow now => (Bbr.allow fl plat l now).map Prod.snd
  | .done rtt now => Bbr.done l rtt now

def HystrixCall.Rotates : HystrixCall → Prop
  | .markSuccess _ _ => True
  | .markFailure _ _ => True
  | .allow _ => False
  | .state _ => False

def SresCall.Rotates : SresCall → Prop
  | .state => False
  | .allow _ _ => True
  | .markSuccess _ => True
  | .markFailure _ => True

/-! ## A machine with a window -/

section

variable {σ ο β : Type} {call : σ → ο → Option σ} {w : σ → BucketRing β} {I : σ → Prop} {R : ο → Prop}

/-- how the calls use the window `w`: with buckets of positive duration none of them panics, without a duration those
that rotate, `R`, do; the others leave the window alone -/
structure Windowed (call : σ → ο → Option σ) (w : σ → BucketRing β) (I : σ → Prop) (R : ο → Prop) : Prop where
  performs : ∀ s o, I s → (w s).Wf → ∃ s', call s o = some s' ∧ I s' ∧ (w s').Wf
  spares : ∀ s o, I s → ¬ R o → ∃ s', call s o = some s' ∧ I s' ∧ w s' = w s
  panics : ∀ s o, I s → R o → (w s).bucketDuration = 0 → call s o = none

theorem Windowed.tryRun_iff (h : Windowed call w I R) {s : σ} (hs : I s) (hb : 0 < (w s).buckets.length)
    (ops : List ο) : tryRun call s ops = none ↔ (w s).bucketDuration = 0 ∧ ∃ o ∈ ops, R o := by
  by_cases hd : (w s).bucketDuration = 0
  · rw [and_iff_right hd]
    refine tryRun_eq_none_iff (I := fun s => I s ∧ (w s).bucketDuration = 0)
      (fun s o hI ho => h.panics s o hI.1 ho hI.2) (fun s o hI ho => ?_) ⟨hs, hd⟩ ops
    obtain ⟨s', he, hs', hw⟩ := h.spares s o hI.1 ho
    exact ⟨s', he, hs', by rw [hw]; exact hI.2⟩
  · have hw : (w s).Wf := ⟨Nat.pos_of_ne_zero hd, hb⟩
    rw [tryRun_eq_none_iff (I := fun s => I s ∧ (w s).Wf) (F := fun _ => False) (fun _ _ _ hF => hF.elim)
      (fun s o hI _ => h.performs s o hI.1 hI.2) ⟨hs, hw⟩ ops]
    simp [hd]

end

/-! ## The three components -/

theorem hystrix_windowed :
    Windowed HystrixCall.perform Hystrix.Breaker.ring (fun _ => True) HystrixCall.Rotates where
  performs b o _ hw := by
    cases o with
    | allow now =>
      refine ⟨_, rfl, trivial, ?_⟩
      rw [(Hystrix.quiet_allow b now).ring_eq]
      exact hw
    | markSuccess now evalNow =>
      exact ⟨_, Hystrix.mark_eq_some hw true now evalNow, trivial, Hystrix.reported_wf hw true now evalNow⟩
    | markFailure now evalNow =>
      exact ⟨_, Hystrix.mark_eq_some hw false now evalNow, trivial, Hystrix.reported_wf hw false now evalNow⟩
    | state now =>
      refine ⟨_, rfl, trivial, ?_⟩
      rw [(Hystrix.quiet_pollState b now).ring_eq]
      exact hw
  spares b o _ ho := by
    cases o with
    | allow now => exact ⟨_, rfl, trivial, (Hystrix.quiet_allow b now).ring_eq⟩
    | markSuccess now evalNow | markFailure now evalNow => exact absurd trivial ho
    | state now => exact ⟨_, rfl, trivial, (Hystrix.quiet_pollState b now).ring_eq⟩
  panics b o _ ho hd := by
    cases o with
    | allow now => exact ho.elim
    | markSuccess now evalNow => exact Hystrix.markSuccess_none hd now evalNow
    | markFailure now evalNow => exact Hystrix.markFailure_none hd now evalNow
    | state now => exact ho.elim

theorem sres_windowed :
    Windowed SresCall.perform Sres.Breaker.ring (fun b => b.closed = false) SresCall.Rotates where
  performs b o hc hw := by
    cases o with
    | allow now draw =>
      simp only [SresCall.perform, Sres.allow_eq hw hc, Option.map_some, Option.some.injEq, exists_eq_left']
      split_ifs <;> exact ⟨hc, hw.rotate _ now⟩
    | markSuccess now => exact ⟨_, Sres.markSuccess_eq hw now, hc, hw.record _ _ now⟩
    | markFailure now => exact ⟨_, Sres.markFailure_eq hw now, hc, hw.record _ _ now⟩
    | state => exact ⟨b, rfl, hc, hw⟩
  spares b o hc ho := by
    cases o with
    | state => exact ⟨b, rfl, hc, rfl⟩
    | _ => exact absurd trivial ho
  panics b o hc ho hd := by
    cases o with
    | allow now draw =>
      simp only [SresCall.perform, Sres.allow_none hd hc, Option.map_none]
    | markSuccess now => exact Sres.markSuccess_none hd now
    | markFailure now => exact Sres.markFailure_none hd now
    | state => exact ho.elim

theorem bbr_windowed (fl : Go.Float64) (plat : Go.Platform) :
    Windowed (BbrCall.perform fl plat) Bbr.Limiter.ring (fun l => l.closed = false) (fun _ => True) where
  performs l o hc hw := by
    cases o with
    | allow now =>
      simp only [BbrCall.perform, Bbr.allow_eq fl plat hw hc, Option.map_some, Option.some.injEq, exists_eq_left']
      split_ifs <;> exact ⟨hc, hw.rotate _ now⟩
    | done rtt now => exact ⟨_, Bbr.done_eq hw rtt now, hc, hw.record _ _ now⟩
  spares l o _ ho := absurd trivial ho
  panics l o hc _ hd := by
    cases o with
    | allow now => simp only [BbrCall.perform, Bbr.allow_none fl plat hd hc, Option.map_none]
    | done rtt now => exact Bbr.done_none hd rtt now

/-- **Which runs panic.** For the three components a run panics exactly when the window has fewer nanoseconds than
buckets and one of its calls rotates the window. No bucket index is ever out of range. -/
theorem panics_iff (fl : Go.Float64) (plat : Go.Platform) (t0 : ℕ) :
    (∀ (cfg : Hystrix.Config) (ops : List HystrixCall), tryRun HystrixCall.perform (Hystrix.new cfg t0) ops = none ↔
      cfg.window < cfg.bucketCount ∧ ∃ o ∈ ops, o.Rotates) ∧
    (∀ (cfg : Sres.Config) (ops : List SresCall), tryRun SresCall.perform (Sres.new cfg t0) ops = none ↔
      cfg.window < cfg.bucketCount ∧ ∃ o ∈ ops, o.Rotates) ∧
    (∀ (cfg : Bbr.Config) (ops : List BbrCall), tryRun (BbrCall.perform fl plat) (Bbr.new cfg t0) ops = none ↔
      cfg.window < cfg.bucketCount ∧ ops ≠ []) := by
  refine ⟨fun cfg ops => ?_, fun cfg ops => ?_, fun cfg ops => ?_⟩
  · rw [hystrix_windowed.tryRun_iff trivial (by simpa [Hystrix.new] using cfg.bucketCount_pos) ops]
    exact and_congr_left' (Nat.div_eq_zero_iff_lt cfg.bucketCount_pos)
  · rw [sres_windowed.tryRun_iff rfl (by simpa [Sres.new] using cfg.bucketCount_pos) ops]
    exact and_congr_left' (Nat.div_eq_zero_iff_lt cfg.bucketCount_pos)
  · rw [(bbr_windowed fl plat).tryRun_iff rfl (by simpa [Bbr.new] using cfg.bucketCount_pos) ops]
    refine and_congr (Nat.div_eq_zero_iff_lt cfg.bucketCount_pos) ?_
    simp only [and_true]
    exact ⟨fun h => List.ne_nil_of_mem h.choose_spec, List.exists_mem_of_ne_nil ops⟩

theorem short_window_panics :
    tryRun HystrixCall.perform (Hystrix.new (Hystrix.configure [Hystrix.withWindow 5]) 0) [.markSuccess 1 1] = none ∧
      tryRun SresCall.perform (Sres.new (Sres.configure [Sres.withWindow 5]) 0) [.allow 1 0] = none ∧
      tryRun (BbrCall.perform Go.unrounded Go.amd64) (Bbr.new (Bbr.configure Go.unrounded [Bbr.withWindow 5]) 0)
        [.allow 1] = none := by
  decide +kernel

end LuluExt.WindowPanic
