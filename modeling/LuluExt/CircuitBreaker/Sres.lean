/-
The sres breaker: a sliding window of outcomes and a probabilistic `Allow`. The random draw of `Allow` is an argument,
rates and acceptance probabilities are rationals where the source has float64: K is read as the decimal that is written,
and nothing is rounded. The breaker has no state besides its window and the closed flag.

- `allow_eq`, `markSuccess_eq`, `markFailure_eq`: everything the calls do when buckets have a duration;
- `allow_none`, `markSuccess_none`, `markFailure_none`: without a bucket duration they panic.
-/
import LuluExt.CircuitBreaker.Basic
import LuluExt.Window

namespace LuluExt.Sres

open LuluExt.CircuitBreaker

structure Config where
  k : ℚ
  /-- nanoseconds -/
  window : ℕ
  bucketCount : ℕ
  k_pos : 0 < k
  window_pos : 0 < window
  bucketCount_pos : 0 < bucketCount

def withK (k : ℚ) (c : Config) : Config := if h : k > 0 then { c with k := k, k_pos := h } else c

def withWindow (d : ℤ) (c : Config) : Config :=
  if h : d > 0 then { c with window := d.toNat, window_pos := Go.toNat_pos h } else c

def withBucketCount (n : ℤ) (c : Config) : Config :=
  if h : n > 0 then { c with bucketCount := n.toNat, bucketCount_pos := Go.toNat_pos h } else c

def defaultConfig : Config := ⟨2, 10000000000, 40, by norm_num, Window.default_pos, by norm_num⟩

def configure (opts : List (Config → Config)) : Config := opts.foldl (fun c opt => opt c) defaultConfig

structure SreBucket where
  requests : ℕ
  errors : ℕ
deriving DecidableEq, Repr

def SreBucket.zero : SreBucket := ⟨0, 0⟩

structure Breaker where
  cfg : Config
  /-- `bucketDuration`, `buckets` and `lastRotate` -/
  ring : BucketRing SreBucket
  closed : Bool

def new (cfg : Config) (now : ℕ) : Breaker where
  cfg := cfg
  ring := ⟨cfg.window / cfg.bucketCount, List.replicate cfg.bucketCount .zero, now⟩
  closed := false

def rotateLocked {β : Type} (zero : β) (w : BucketRing β) (now : ℕ) : Option (BucketRing β) :=
  Window.rotateWith Window.clearIndex zero w now

structure WindowStats where
  requests : ℚ
  errors : ℚ

def statsLocked (w : BucketRing SreBucket) : WindowStats :=
  ⟨((w.buckets.map SreBucket.requests).sum : ℕ), ((w.buckets.map SreBucket.errors).sum : ℕ)⟩

def acceptance (cfg : Config) (stats : WindowStats) : ℚ :=
  (stats.requests - cfg.k * stats.errors) / (stats.requests + 1)

/-- `Allow`; `draw` is the value of `rand.Float64()` -/
def allow (b : Breaker) (now : ℕ) (draw : ℚ) : Option (Option GoError × Breaker) :=
  if b.closed then some (some errCircuitOpen, b)
  else do
    let ring ← rotateLocked .zero b.ring now
    let b := { b with ring := ring }
    let stats := statsLocked b.ring
    let accept := if stats.requests > 0 then acceptance b.cfg stats else 1
    let accept := if accept < 0 then 0 else accept
    if accept ≥ 1 then return (none, b)
    else if draw < accept then return (none, b)
    else return (some errCircuitOpen, b)

def addSuccess (k : SreBucket) : SreBucket := { k with requests := k.requests + 1 }

def addFailure (k : SreBucket) : SreBucket := { k with requests := k.requests + 1, errors := k.errors + 1 }

def markSuccess (b : Breaker) (now : ℕ) : Option Breaker := do
  let ring ← Window.recordWith Window.clearIndex .zero addSuccess b.ring now
  return { b with ring := ring }

def markFailure (b : Breaker) (now : ℕ) : Option Breaker := do
  let ring ← Window.recordWith Window.clearIndex .zero addFailure b.ring now
  return { b with ring := ring }

/-- `State` reads the window without rotating it -/
def pollState (b : Breaker) : State :=
  let stats := statsLocked b.ring
  if stats.requests = 0 then .closed
  else
    let accept := acceptance b.cfg stats
    if accept ≤ 0 then .open
    else if accept < 1 then .halfOpen
    else .closed

def close (b : Breaker) : Breaker := { b with closed := true }

/-! ## What the operations do -/

def acceptProbability (cfg : Config) (stats : WindowStats) : ℚ :=
  let accept := if stats.requests > 0 then acceptance cfg stats else 1
  if accept < 0 then 0 else accept

/-- the counts that an `Allow` at `now` reads, when buckets have a duration -/
def statsAt (b : Breaker) (now : ℕ) : WindowStats := statsLocked (b.ring.rotate .zero now)

variable {b : Breaker}

theorem allow_eq (hw : b.ring.Wf) (hc : b.closed = false) (now : ℕ) (draw : ℚ) :
    allow b now draw = some (
      if 1 ≤ acceptProbability b.cfg (statsAt b now) ∨ draw < acceptProbability b.cfg (statsAt b now) then
        (none, { b with ring := b.ring.rotate .zero now })
      else (some errCircuitOpen, { b with ring := b.ring.rotate .zero now })) := by
  have hrotate : rotateLocked .zero b.ring now = some (b.ring.rotate .zero now) :=
    Window.rotateWith_eq Window.clearsBack_clearIndex hw .zero now
  simp only [allow, hc, hrotate]
  change (if acceptProbability b.cfg (statsAt b now) ≥ 1 then _ else
    if draw < acceptProbability b.cfg (statsAt b now) then _ else _) = _
  by_cases hfull : acceptProbability b.cfg (statsAt b now) ≥ 1
  · rw [if_pos hfull, if_pos (.inl hfull)]
    rfl
  · rw [if_neg hfull]
    by_cases hdraw : draw < acceptProbability b.cfg (statsAt b now)
    · rw [if_pos hdraw, if_pos (.inr hdraw)]
      rfl
    · rw [if_neg hdraw, if_neg (not_or.2 ⟨hfull, hdraw⟩)]
      rfl

theorem allow_none (hd : b.ring.bucketDuration = 0) (hc : b.closed = false) (now : ℕ) (draw : ℚ) :
    allow b now draw = none := by
  simp [allow, hc, rotateLocked, Window.rotateWith_zero _ _ hd]

theorem markSuccess_eq (hw : b.ring.Wf) (now : ℕ) :
    markSuccess b now = some { b with ring := b.ring.record .zero addSuccess now } := by
  simp [markSuccess, Window.recordWith_eq Window.clearsBack_clearIndex hw]

theorem markFailure_eq (hw : b.ring.Wf) (now : ℕ) :
    markFailure b now = some { b with ring := b.ring.record .zero addFailure now } := by
  simp [markFailure, Window.recordWith_eq Window.clearsBack_clearIndex hw]

theorem markSuccess_none (hd : b.ring.bucketDuration = 0) (now : ℕ) : markSuccess b now = none := by
  simp [markSuccess, Window.recordWith_zero _ _ _ hd]

theorem markFailure_none (hd : b.ring.bucketDuration = 0) (now : ℕ) : markFailure b now = none := by
  simp [markFailure, Window.recordWith_zero _ _ _ hd]

end LuluExt.Sres
