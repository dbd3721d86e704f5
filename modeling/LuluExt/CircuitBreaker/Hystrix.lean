/-
The hystrix breaker: options, construction, and the operations of one breaker under its mutex.

Every operation takes the clock readings it makes as arguments. `MarkSuccess` and `MarkFailure` read the clock once for
the window and once more in `evaluateLocked`, when the breaker trips. Where the source has float64, rates are rationals:
a threshold is read as the decimal that is written, and a rate is not rounded. A configuration carries what its options
guarantee; the bucket duration is a floor and may still be zero, in which case every mark panics before it changes
anything.

- `markSuccess_eq`, `markFailure_eq`: everything a mark does to a breaker with buckets of positive duration;
- `markSuccess_none`, `markFailure_none`: without a bucket duration a mark panics;
- `step_sound`: every operation keeps the shape of the window, and a breaker without bucket duration stays Closed.
-/
import LuluExt.CircuitBreaker.Basic
import LuluExt.Window

namespace LuluExt.Hystrix

open LuluExt.CircuitBreaker

/-! ## Options and construction -/

structure Config where
  errorThreshold : ℚ
  requestVolumeThreshold : ℕ
  /-- nanoseconds from Open to HalfOpen -/
  sleepWindow : ℕ
  /-- nanoseconds -/
  window : ℕ
  bucketCount : ℕ
  errorThreshold_mem : 0 < errorThreshold ∧ errorThreshold ≤ 1
  requestVolumeThreshold_pos : 0 < requestVolumeThreshold
  sleepWindow_pos : 0 < sleepWindow
  window_pos : 0 < window
  bucketCount_pos : 0 < bucketCount

def withErrorThreshold (rate : ℚ) (c : Config) : Config :=
  if h : rate > 0 ∧ rate ≤ 1 then { c with errorThreshold := rate, errorThreshold_mem := h } else c

def withRequestVolumeThreshold (n : ℤ) (c : Config) : Config :=
  if h : n > 0 then { c with requestVolumeThreshold := n.toNat, requestVolumeThreshold_pos := Go.toNat_pos h } else c

def withSleepWindow (d : ℤ) (c : Config) : Config :=
  if h : d > 0 then { c with sleepWindow := d.toNat, sleepWindow_pos := Go.toNat_pos h } else c

def withWindow (d : ℤ) (c : Config) : Config :=
  if h : d > 0 then { c with window := d.toNat, window_pos := Go.toNat_pos h } else c

def withBucketCount (n : ℤ) (c : Config) : Config :=
  if h : n > 0 then { c with bucketCount := n.toNat, bucketCount_pos := Go.toNat_pos h } else c

def defaultConfig : Config :=
  ⟨1 / 2, 20, 5000000000, 10000000000, 10, by norm_num, Nat.succ_pos _, Nat.succ_pos _, Window.default_pos,
    Nat.succ_pos _⟩

def configure (opts : List (Config → Config)) : Config := opts.foldl (fun c opt => opt c) defaultConfig

structure HystrixBucket where
  requests : ℕ
  errors : ℕ
deriving DecidableEq, Repr

def HystrixBucket.zero : HystrixBucket := ⟨0, 0⟩

structure Breaker where
  cfg : Config
  /-- `bucketDuration`, `buckets` and `lastRotate` -/
  ring : BucketRing HystrixBucket
  state : State
  /-- read in Open only, which always sets it -/
  openedAt : ℕ
  halfOpenIn : Bool
  closed : Bool

def new (cfg : Config) (now : ℕ) : Breaker where
  cfg := cfg
  ring := ⟨cfg.window / cfg.bucketCount, List.replicate cfg.bucketCount .zero, now⟩
  state := .closed
  openedAt := 0
  halfOpenIn := false
  closed := false

/-! ## The window -/

def rotateLocked {β : Type} (zero : β) (w : BucketRing β) (now : ℕ) : Option (BucketRing β) :=
  Window.rotateWith Window.clearIndex zero w now

def resetBucketsLocked {β : Type} (zero : β) (w : BucketRing β) : BucketRing β :=
  { w with buckets := w.buckets.map fun _ => zero }

/-! ## Operations -/

/-- the HalfOpen case of `Allow`: a trial in flight rejects additional requests -/
def allowHalfOpen (b : Breaker) : Option GoError × Breaker :=
  if b.halfOpenIn then (some errCircuitOpen, b) else (none, { b with halfOpenIn := true })

def allow (b : Breaker) (now : ℕ) : Option GoError × Breaker :=
  if b.closed then (some errCircuitOpen, b)
  else
    match b.state with
    | .open =>
      if (now : ℤ) - b.openedAt ≥ b.cfg.sleepWindow then
        -- the Open case falls through into the HalfOpen case
        allowHalfOpen { b with state := .halfOpen, halfOpenIn := true }
      else (some errCircuitOpen, b)
    | .halfOpen => allowHalfOpen b
    | .closed => (none, b)

def totalReqs (w : BucketRing HystrixBucket) : ℕ := (w.buckets.map HystrixBucket.requests).sum

def totalErrs (w : BucketRing HystrixBucket) : ℕ := (w.buckets.map HystrixBucket.errors).sum

def OverThreshold (cfg : Config) (w : BucketRing HystrixBucket) : Prop :=
  ¬ totalReqs w < cfg.requestVolumeThreshold ∧ totalReqs w ≠ 0 ∧
    (totalErrs w : ℚ) / (totalReqs w : ℚ) ≥ cfg.errorThreshold

instance (cfg : Config) (w : BucketRing HystrixBucket) : Decidable (OverThreshold cfg w) := by
  unfold OverThreshold; infer_instance

def evaluateLocked (b : Breaker) (now : ℕ) : Breaker :=
  if b.state ≠ .closed then b
  else if OverThreshold b.cfg b.ring then { b with state := .open, openedAt := now }
  else b

def recoverTrial (b : Breaker) (w : BucketRing HystrixBucket) : Breaker :=
  { b with ring := resetBucketsLocked .zero w, state := .closed, halfOpenIn := false }

def reopenTrial (b : Breaker) (w : BucketRing HystrixBucket) (now : ℕ) : Breaker :=
  { b with ring := w, state := .open, openedAt := now, halfOpenIn := false }

/-- the rest of a mark outside HalfOpen: count the outcome in the current bucket and evaluate -/
def countOutcome (b : Breaker) (w : BucketRing HystrixBucket) (f : HystrixBucket → HystrixBucket) (now evalNow : ℕ) :
    Option Breaker := do
  let idx ← Window.bucketIndexLocked w now
  let buckets ← Go.store w.buckets idx f
  return evaluateLocked { b with ring := { w with buckets := buckets } } evalNow

def addSuccess (k : HystrixBucket) : HystrixBucket := { k with requests := k.requests + 1 }

def addFailure (k : HystrixBucket) : HystrixBucket := { k with requests := k.requests + 1, errors := k.errors + 1 }

def markSuccess (b : Breaker) (now evalNow : ℕ) : Option Breaker := do
  let w ← rotateLocked .zero b.ring now
  if b.state = .halfOpen then return recoverTrial b w
  else countOutcome b w addSuccess now evalNow

def markFailure (b : Breaker) (now evalNow : ℕ) : Option Breaker := do
  let w ← rotateLocked .zero b.ring now
  if b.state = .halfOpen then return reopenTrial b w now
  else countOutcome b w addFailure now evalNow

/-- `State`: the lazy transition from Open to HalfOpen, then the state -/
def pollState (b : Breaker) (now : ℕ) : State × Breaker :=
  let b' := if b.state = .open ∧ (now : ℤ) - b.openedAt ≥ b.cfg.sleepWindow then { b with state := .halfOpen } else b
  (b'.state, b')

def close (b : Breaker) : Breaker := { b with closed := true }

/-- `Execute`: `Allow`, the function, one mark. A panic of the function leaves without a mark. -/
def execute (b : Breaker) (fn : FnResult) (allowNow markNow evalNow : ℕ) : FnResult × Breaker :=
  match allow b allowNow with
  | (some e, b) => (.err e, b)
  | (none, b) =>
    match fn with
    | .panics => (.panics, b)
    | .err e =>
      match markFailure b markNow evalNow with
      | none => (.panics, b)
      | some b => (.err e, b)
    | .nil =>
      match markSuccess b markNow evalNow with
      | none => (.panics, b)
      | some b => (.nil, b)

inductive Op where
  | allow (now : ℕ)
  | markSuccess (now evalNow : ℕ)
  | markFailure (now evalNow : ℕ)
  | execute (fn : FnResult) (allowNow markNow evalNow : ℕ)
  | state (now : ℕ)
  | close
deriving DecidableEq, Repr

/-- one call; a mark that panics has changed nothing yet -/
def step (b : Breaker) : Op → Breaker
  | .allow now => (allow b now).2
  | .markSuccess now evalNow => (markSuccess b now evalNow).getD b
  | .markFailure now evalNow => (markFailure b now evalNow).getD b
  | .execute fn allowNow markNow evalNow => (execute b fn allowNow markNow evalNow).2
  | .state now => (pollState b now).2
  | .close => close b

/-! ## What the operations do -/

def grantSlot (b : Breaker) : Breaker := { b with halfOpenIn := true }

/-- the sleep window is over: the fallthrough finds the slot it has just taken, and rejects -/
def loseSlot (b : Breaker) : Breaker := { b with state := .halfOpen, halfOpenIn := true }

theorem allow_cases (b : Breaker) (now : ℕ) :
    allow b now = (some errCircuitOpen, b) ∨
    (b.state = .closed ∧ allow b now = (none, b)) ∨
    (b.state = .halfOpen ∧ b.halfOpenIn = false ∧ allow b now = (none, grantSlot b)) ∨
    (b.state = .open ∧ allow b now = (some errCircuitOpen, loseSlot b)) := by
  unfold allow
  cases hc : b.closed with
  | true => exact .inl rfl
  | false =>
    cases hs : b.state with
    | closed => exact .inr (.inl ⟨rfl, rfl⟩)
    | halfOpen =>
      cases hi : b.halfOpenIn with
      | true => exact .inl (by simp [allowHalfOpen, hi])
      | false => exact .inr (.inr (.inl ⟨rfl, rfl, by simp [allowHalfOpen, hi, grantSlot]⟩))
    | «open» =>
      by_cases hw : (now : ℤ) - b.openedAt ≥ b.cfg.sleepWindow
      · exact .inr (.inr (.inr ⟨rfl, by simp [hw, allowHalfOpen, loseSlot, hc]⟩))
      · exact .inl (by simp [hw])

theorem rotateLocked_eq {β : Type} {w : BucketRing β} (hw : w.Wf) (zero : β) (now : ℕ) :
    rotateLocked zero w now = some (w.rotate zero now) :=
  Window.rotateWith_eq Window.clearsBack_clearIndex hw zero now

variable {b : Breaker}

theorem countOutcome_eq (hw : b.ring.Wf) (f : HystrixBucket → HystrixBucket) (now evalNow : ℕ) :
    countOutcome b (b.ring.rotate .zero now) f now evalNow =
      some (evaluateLocked { b with ring := b.ring.record .zero f now } evalNow) := by
  have hr := hw.rotate HystrixBucket.zero now
  simp only [countOutcome, Window.bucketIndexLocked_eq hr, Option.bind_eq_bind, Option.bind_some,
    Go.store_natCast _ (BucketRing.index_lt hr now)]
  rfl

theorem markSuccess_eq (hw : b.ring.Wf) (now evalNow : ℕ) :
    markSuccess b now evalNow = some (if b.state = .halfOpen then recoverTrial b (b.ring.rotate .zero now)
      else evaluateLocked { b with ring := b.ring.record .zero addSuccess now } evalNow) := by
  rw [markSuccess, rotateLocked_eq hw, Option.bind_eq_bind, Option.bind_some, countOutcome_eq hw]
  split_ifs <;> rfl

theorem markFailure_eq (hw : b.ring.Wf) (now evalNow : ℕ) :
    markFailure b now evalNow = some (if b.state = .halfOpen then reopenTrial b (b.ring.rotate .zero now) now
      else evaluateLocked { b with ring := b.ring.record .zero addFailure now } evalNow) := by
  rw [markFailure, rotateLocked_eq hw, Option.bind_eq_bind, Option.bind_some, countOutcome_eq hw]
  split_ifs <;> rfl

theorem markSuccess_none (hd : b.ring.bucketDuration = 0) (now evalNow : ℕ) : markSuccess b now evalNow = none := by
  rw [markSuccess, rotateLocked, Window.rotateWith_zero _ _ hd]
  rfl

theorem markFailure_none (hd : b.ring.bucketDuration = 0) (now evalNow : ℕ) : markFailure b now evalNow = none := by
  rw [markFailure, rotateLocked, Window.rotateWith_zero _ _ hd]
  rfl

/-- both marks, by the outcome -/
def reported (b : Breaker) (ok : Bool) (now evalNow : ℕ) : Breaker :=
  (if ok then markSuccess b now evalNow else markFailure b now evalNow).getD b

def addOutcome (failed : Bool) : HystrixBucket → HystrixBucket := if failed = true then addFailure else addSuccess

theorem reported_eq (hw : b.ring.Wf) (ok : Bool) (now evalNow : ℕ) : reported b ok now evalNow =
    if b.state = .halfOpen then
      if ok then recoverTrial b (b.ring.rotate .zero now) else reopenTrial b (b.ring.rotate .zero now) now
    else evaluateLocked { b with ring := b.ring.record .zero (addOutcome (!ok)) now } evalNow := by
  cases ok with
  | true => simp [reported, markSuccess_eq hw, addOutcome]
  | false => simp [reported, markFailure_eq hw, addOutcome]

theorem mark_eq_some (hw : b.ring.Wf) (ok : Bool) (now evalNow : ℕ) :
    (if ok then markSuccess b now evalNow else markFailure b now evalNow) = some (reported b ok now evalNow) := by
  cases ok <;> simp [reported, markSuccess_eq hw, markFailure_eq hw]

theorem reported_none (hd : b.ring.bucketDuration = 0) (ok : Bool) (now evalNow : ℕ) :
    reported b ok now evalNow = b := by
  cases ok with
  | true => rw [reported, if_pos rfl, markSuccess_none hd, Option.getD_none]
  | false => rw [reported, if_neg (by decide), markFailure_none hd, Option.getD_none]

/-! ## The shape of the window -/

/-- the window has its buckets; a breaker whose marks panic is still Closed -/
structure Sound (b : Breaker) : Prop where
  buckets_pos : 0 < b.ring.buckets.length
  zero_closed : b.ring.bucketDuration = 0 → b.state = .closed

theorem Sound.wf (h : Sound b) (hs : b.state ≠ .closed) : b.ring.Wf :=
  ⟨Nat.pos_of_ne_zero fun hd => hs (h.zero_closed hd), h.buckets_pos⟩

theorem sound_new (cfg : Config) (now : ℕ) : Sound (new cfg now) :=
  ⟨by simpa [new] using cfg.bucketCount_pos, fun _ => rfl⟩

/-- a call that counts no outcome: the window stays, and Closed is neither entered nor left -/
structure Quiet (b b' : Breaker) : Prop where
  cfg_eq : b'.cfg = b.cfg
  ring_eq : b'.ring = b.ring
  closed_iff : b'.state = .closed ↔ b.state = .closed

theorem Quiet.sound {b' : Breaker} (hq : Quiet b b') (h : Sound b) : Sound b' where
  buckets_pos := hq.ring_eq ▸ h.buckets_pos
  zero_closed hd := hq.closed_iff.2 (h.zero_closed (hq.ring_eq ▸ hd))

theorem quiet_allow (b : Breaker) (now : ℕ) : Quiet b (allow b now).2 := by
  rcases allow_cases b now with e | ⟨-, e⟩ | ⟨-, -, e⟩ | ⟨hs, e⟩ <;> rw [e]
  · exact ⟨rfl, rfl, Iff.rfl⟩
  · exact ⟨rfl, rfl, Iff.rfl⟩
  · exact ⟨rfl, rfl, Iff.rfl⟩
  · exact ⟨rfl, rfl, by simp [loseSlot, hs]⟩

theorem quiet_pollState (b : Breaker) (now : ℕ) : Quiet b (pollState b now).2 := by
  simp only [pollState]
  split_ifs with hopen
  · exact ⟨rfl, rfl, by simp [hopen.1]⟩
  · exact ⟨rfl, rfl, Iff.rfl⟩

theorem quiet_close (b : Breaker) : Quiet b (close b) := ⟨rfl, rfl, Iff.rfl⟩

theorem evaluateLocked_ring (b : Breaker) (now : ℕ) : (evaluateLocked b now).ring = b.ring := by
  unfold evaluateLocked; split_ifs <;> rfl

theorem evaluateLocked_cfg (b : Breaker) (now : ℕ) : (evaluateLocked b now).cfg = b.cfg := by
  unfold evaluateLocked; split_ifs <;> rfl

theorem reported_wf (hw : b.ring.Wf) (ok : Bool) (now evalNow : ℕ) : (reported b ok now evalNow).ring.Wf := by
  rw [reported_eq hw]
  split_ifs
  · exact (hw.rotate _ now).reset _
  · exact hw.rotate _ now
  · rw [evaluateLocked_ring]
    exact hw.record _ _ now

theorem sound_reported (h : Sound b) (ok : Bool) (now evalNow : ℕ) : Sound (reported b ok now evalNow) := by
  by_cases hd : b.ring.bucketDuration = 0
  · rwa [reported_none hd]
  · have hw := reported_wf ⟨Nat.pos_of_ne_zero hd, h.buckets_pos⟩ ok now evalNow
    exact ⟨hw.buckets_pos, fun hd => absurd hd hw.duration_pos.ne'⟩

theorem execute_snd (b : Breaker) (fn : FnResult) (allowNow markNow evalNow : ℕ) :
    (execute b fn allowNow markNow evalNow).2 =
      match (allow b allowNow).1, fn with
      | some _, _ => (allow b allowNow).2
      | none, .panics => (allow b allowNow).2
      | none, .err _ => (markFailure (allow b allowNow).2 markNow evalNow).getD (allow b allowNow).2
      | none, .nil => (markSuccess (allow b allowNow).2 markNow evalNow).getD (allow b allowNow).2 := by
  unfold execute
  rcases allow b allowNow with ⟨_ | e, b1⟩
  · cases fn with
    | panics => rfl
    | err e => cases h : markFailure b1 markNow evalNow <;> simp [h]
    | nil => cases h : markSuccess b1 markNow evalNow <;> simp [h]
  · rfl

theorem step_sound (b : Breaker) (o : Op) (h : Sound b) : Sound (step b o) := by
  cases o with
  | allow now => exact (quiet_allow b now).sound h
  | markSuccess now evalNow => exact sound_reported h true now evalNow
  | markFailure now evalNow => exact sound_reported h false now evalNow
  | execute fn allowNow markNow evalNow =>
    have ha := (quiet_allow b allowNow).sound h
    simp only [step, execute_snd]
    split
    · exact ha
    · exact ha
    · exact sound_reported ha false markNow evalNow
    · exact sound_reported ha true markNow evalNow
  | state now => exact (quiet_pollState b now).sound h
  | close => exact (quiet_close b).sound h

end LuluExt.Hystrix
