/-
The bbr limiter: a sliding window of completions, the estimate of the sustainable rate, and the inflight count.

`Allow` counts a request in, `Done` counts it out; the caller must call `Done` once for every admitted request. Both
take the mutex without `defer`, so a panic inside (`none`: a bucket duration of zero) never releases it. A float64 is a
rational, finite, and every operation on floats rounds its result; the sum of the round-trip times wraps in 64 bits. The
bucket's `startTime` is never read and is left out.

- `allow_cases`, `allow_none`: what `Allow` does when buckets have a duration, and when they have none;
- `maxInflightOf_pos`: the limit is at least one.
-/
import LuluExt.RateLimit.Basic
import LuluExt.Window

namespace LuluExt.Bbr

open RateLimit

structure Config where
  cpuThreshold : ℚ
  /-- nanoseconds -/
  window : ℕ
  bucketCount : ℕ
  minQPS : ℚ
  cpuThreshold_mem : 0 < cpuThreshold ∧ cpuThreshold < 1
  window_pos : 0 < window
  bucketCount_pos : 0 < bucketCount
  minQPS_pos : 0 < minQPS

def withCPUThreshold (threshold : ℚ) (c : Config) : Config :=
  if h : threshold > 0 ∧ threshold < 1 then { c with cpuThreshold := threshold, cpuThreshold_mem := h } else c

def withWindow (d : ℤ) (c : Config) : Config :=
  if h : d > 0 then { c with window := d.toNat, window_pos := Go.toNat_pos h } else c

def withBucketCount (n : ℤ) (c : Config) : Config :=
  if h : n > 0 then { c with bucketCount := n.toNat, bucketCount_pos := Go.toNat_pos h } else c

def withMinQPS (qps : ℚ) (c : Config) : Config := if h : qps > 0 then { c with minQPS := qps, minQPS_pos := h } else c

theorem default_cpuThreshold_mem (fl : Go.Float64) : 0 < fl.round (4 / 5) ∧ fl.round (4 / 5) < 1 := by
  have hsmall : (1 : ℚ) / 2 ^ 1022 ≤ 1 / 2 ^ 1 := one_div_pow_le_one_div_pow_of_le one_le_two (by decide)
  have hlarge : (2 : ℚ) ^ 0 < 2 ^ 1023 := pow_lt_pow_right₀ one_lt_two (by decide)
  have hclose := abs_le.1 (fl.round_close (4 / 5) (hsmall.trans (by norm_num)) (lt_trans (by norm_num) hlarge))
  constructor
  · linarith [hclose.1]
  · linarith [hclose.2]

theorem default_minQPS_pos : (0 : ℚ) < 1 := by norm_num

def defaultConfig (fl : Go.Float64) : Config :=
  ⟨fl.round (4 / 5), 10000000000, 40, 1, default_cpuThreshold_mem fl, Window.default_pos, Nat.succ_pos _,
    default_minQPS_pos⟩

def configure (fl : Go.Float64) (opts : List (Config → Config)) : Config :=
  opts.foldl (fun c opt => opt c) (defaultConfig fl)

structure Bucket where
  count : ℤ
  /-- nanoseconds -/
  totalRTT : ℤ
deriving DecidableEq, Repr

def Bucket.zero : Bucket := ⟨0, 0⟩

structure Limiter where
  cfg : Config
  /-- `bucketDuration`, `buckets` and `lastBucketTime` -/
  ring : BucketRing Bucket
  inflight : ℤ
  /-- the last rejection, none before the first -/
  lastDropTime : Option ℕ
  maxInflight : ℤ
  closed : Bool

def new (cfg : Config) (now : ℕ) : Limiter where
  cfg := cfg
  ring := ⟨cfg.window / cfg.bucketCount, List.replicate cfg.bucketCount .zero, now⟩
  inflight := 0
  lastDropTime := none
  maxInflight := 0
  closed := false

/-- the index expression of the clearing loop: one conditional wrap, then the remainder -/
def clearIndex (cur steps i n : ℤ) : Option ℤ :=
  let idx := cur - steps + i + 1
  let idx := if idx < 0 then idx + n else idx
  Go.rem idx n

def rotateLocked {β : Type} (zero : β) (w : BucketRing β) (now : ℕ) : Option (BucketRing β) :=
  Window.rotateWith clearIndex zero w now

structure Estimate where
  totalCount : ℤ
  minRTT : ℤ
  zero : Bool

def Estimate.add (e : Estimate) (b : Bucket) : Estimate :=
  if b.count > 0 then
    let avgRTT := b.totalRTT.tdiv b.count
    ⟨e.totalCount + b.count, if avgRTT < e.minRTT then avgRTT else e.minRTT, false⟩
  else e

def estimateMaxQPSLocked (fl : Go.Float64) (cfg : Config) (buckets : List Bucket) : ℚ :=
  let e := buckets.foldl Estimate.add ⟨0, 2 ^ 63 - 1, true⟩
  if e.zero ∨ e.minRTT ≤ 0 then cfg.minQPS
  else
    let qps := fl.round (fl.round e.totalCount / fl.seconds cfg.window)
    let qps := if qps < cfg.minQPS then cfg.minQPS else qps
    let maxPass := fl.round (fl.seconds cfg.window / fl.seconds e.minRTT)
    let qps := if maxPass < qps then maxPass else qps
    max qps cfg.minQPS

def maxInflightOf (fl : Go.Float64) (plat : Go.Platform) (cfg : Config) (buckets : List Bucket) : ℤ :=
  let limit := plat.int64 (fl.round (estimateMaxQPSLocked fl cfg buckets * cfg.cpuThreshold))
  if limit < 1 then 1 else limit

def allow (fl : Go.Float64) (plat : Go.Platform) (l : Limiter) (now : ℕ) : Option ((Bool × Option GoError) × Limiter) :=
  if l.closed then some ((false, some errLimited), l)
  else do
    let ring ← rotateLocked .zero l.ring now
    let maxInflight := maxInflightOf fl plat l.cfg ring.buckets
    let l := { l with ring := ring, maxInflight := maxInflight }
    if l.inflight ≥ maxInflight then
      return ((false, some errLimited), { l with lastDropTime := some now })
    else
      return ((true, none), { l with inflight := l.inflight + 1 })

def addDone (rtt : ℤ) (b : Bucket) : Bucket := ⟨b.count + 1, Go.wrap64 (b.totalRTT + rtt)⟩

def done (l : Limiter) (rtt : ℤ) (now : ℕ) : Option Limiter := do
  let l := { l with inflight := l.inflight - 1 }
  let ring ← Window.recordWith clearIndex .zero (addDone rtt) l.ring now
  return { l with ring := ring }

def close (l : Limiter) : Limiter := { l with closed := true }

theorem clearsBack_clearIndex : Window.ClearsBack clearIndex := by
  intro n cur steps i hc hs hi
  have hn : 0 < n := by omega
  unfold clearIndex
  dsimp only
  by_cases hneg : (cur : ℤ) - steps + i + 1 < 0
  · have hcast : (cur : ℤ) - steps + i + 1 + n = ((cur + (n - (steps - 1 - i)) : ℕ) : ℤ) := by omega
    rw [if_pos hneg, hcast, Go.rem_natCast _ hn]
    rfl
  · -- without the wrap the index is n less, which the remainder does not see
    have hcast : (cur : ℤ) - steps + i + 1 = ((cur - (steps - 1 - i) : ℕ) : ℤ) := by omega
    rw [if_neg hneg, hcast, Go.rem_natCast _ hn]
    have hsum : cur + (n - (steps - 1 - i)) = cur - (steps - 1 - i) + n := by omega
    simp [behind, hsum]

theorem rotateLocked_eq {β : Type} {w : BucketRing β} (hw : w.Wf) (zero : β) (now : ℕ) :
    rotateLocked zero w now = some (w.rotate zero now) :=
  Window.rotateWith_eq clearsBack_clearIndex hw zero now

variable (fl : Go.Float64) (plat : Go.Platform)

theorem maxInflightOf_pos (cfg : Config) (buckets : List Bucket) : 1 ≤ maxInflightOf fl plat cfg buckets := by
  unfold maxInflightOf
  dsimp only
  split_ifs with h
  · exact le_rfl
  · exact not_lt.1 h

/-- the limit that an `Allow` at `now` computes, when buckets have a duration -/
def limitAt (fl : Go.Float64) (plat : Go.Platform) (l : Limiter) (now : ℕ) : ℤ :=
  maxInflightOf fl plat l.cfg (l.ring.rotate .zero now).buckets

variable {l : Limiter}

theorem allow_eq (hw : l.ring.Wf) (hc : l.closed = false) (now : ℕ) :
    allow fl plat l now = some (
      if l.inflight ≥ limitAt fl plat l now then
        ((false, some errLimited), { l with
          ring := l.ring.rotate .zero now, maxInflight := limitAt fl plat l now, lastDropTime := some now })
      else
        ((true, none), { l with
          ring := l.ring.rotate .zero now, maxInflight := limitAt fl plat l now, inflight := l.inflight + 1 })) := by
  simp only [allow, hc, Bool.false_eq_true, if_false, rotateLocked_eq hw, Option.bind_eq_bind, Option.bind_some]
  unfold limitAt
  split_ifs <;> rfl

theorem allow_cases (hw : l.ring.Wf) (hc : l.closed = false) (now : ℕ) :
    ∃ ring limit, ring.Wf ∧ 1 ≤ limit ∧
      ((l.inflight ≥ limit ∧ allow fl plat l now =
          some ((false, some errLimited), { l with ring := ring, maxInflight := limit, lastDropTime := some now })) ∨
        (l.inflight < limit ∧ allow fl plat l now =
          some ((true, none), { l with ring := ring, maxInflight := limit, inflight := l.inflight + 1 }))) := by
  refine ⟨l.ring.rotate .zero now, limitAt fl plat l now, hw.rotate .zero now, maxInflightOf_pos fl plat l.cfg _, ?_⟩
  by_cases hfull : l.inflight ≥ limitAt fl plat l now
  · exact .inl ⟨hfull, by rw [allow_eq fl plat hw hc, if_pos hfull]⟩
  · exact .inr ⟨not_le.1 hfull, by rw [allow_eq fl plat hw hc, if_neg hfull]⟩

theorem allow_none (hd : l.ring.bucketDuration = 0) (hc : l.closed = false) (now : ℕ) : allow fl plat l now = none := by
  simp [allow, hc, rotateLocked, Window.rotateWith_zero _ _ hd]

theorem done_eq (hw : l.ring.Wf) (rtt : ℤ) (now : ℕ) :
    done l rtt now = some { l with inflight := l.inflight - 1, ring := l.ring.record .zero (addDone rtt) now } := by
  simp [done, Window.recordWith_eq clearsBack_clearIndex hw]

theorem done_none (hd : l.ring.bucketDuration = 0) (rtt : ℤ) (now : ℕ) : done l rtt now = none := by
  simp [done, Window.recordWith_zero _ _ _ hd]

end LuluExt.Bbr
