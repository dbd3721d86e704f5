/-
What the sliding windows of the hystrix breaker, the sres breaker and the bbr limiter remember.

`Tracked c` runs the code of component c, `Window.rotateWith` and `Window.recordWith` with its index expression, on its
own counters and, by the same calls, on buckets that list the events themselves; `tallies` says that the totals the code
reads are the number of events listed. Operations come with non-decreasing clock readings: rotate (`Allow` of sres and
bbr, a failed trial of hystrix), record an outcome (the marks, `Done`), reset (hystrix only, when a trial succeeds).

`rotateLocked` counts the bucket durations since the un-aligned `lastRotate` but clears buckets of the aligned grid.
When the phase of `now` in its bucket is smaller than that of `lastRotate`, one slot more was crossed than counted and
its bucket is not cleared; when it is not smaller, an event already recorded after the slot of `lastRotate` is cleared.
-/
import LuluExt.Lib.RingLog
import LuluExt.CircuitBreaker.Hystrix
import LuluExt.CircuitBreaker.Sres
import LuluExt.RateLimit.Bbr

namespace LuluExt.WindowMemory

open LuluExt.Run

/-- a recorded outcome: `id` tells events apart, the breakers count `failed`, the limiter adds `rtt` -/
structure Event where
  id : ℕ
  time : ℕ
  failed : Bool
  rtt : ℤ
deriving DecidableEq, Repr

inductive Component where
  | hystrix
  | sres
  | bbr
deriving DecidableEq, Repr

namespace Component

abbrev Bucket : Component → Type
  | .hystrix => Hystrix.HystrixBucket
  | .sres => Sres.SreBucket
  | .bbr => Bbr.Bucket

def zero : (c : Component) → c.Bucket
  | .hystrix => .zero
  | .sres => .zero
  | .bbr => .zero

def add : (c : Component) → Event → c.Bucket → c.Bucket
  | .hystrix, e => if e.failed then Hystrix.addFailure else Hystrix.addSuccess
  | .sres, e => if e.failed then Sres.addFailure else Sres.addSuccess
  | .bbr, e => Bbr.addDone e.rtt

/-- the index expression of the clearing loop -/
def clearIndex : Component → ℤ → ℤ → ℤ → ℤ → Option ℤ
  | .hystrix => Window.clearIndex
  | .sres => Window.clearIndex
  | .bbr => Bbr.clearIndex

def rotateLocked {β : Type} (zero : β) (w : BucketRing β) (now : ℕ) (c : Component) : Option (BucketRing β) :=
  Window.rotateWith c.clearIndex zero w now

def recordLocked {β : Type} (zero : β) (f : β → β) (w : BucketRing β) (now : ℕ) (c : Component) :
    Option (BucketRing β) :=
  Window.recordWith c.clearIndex zero f w now

def total : (c : Component) → BucketRing c.Bucket → ℚ
  | .hystrix, w => Hystrix.totalReqs w
  | .sres, w => (Sres.statsLocked w).requests
  | .bbr, w => (w.buckets.foldl Bbr.Estimate.add ⟨0, 2 ^ 63 - 1, true⟩).totalCount

theorem clearsBack (c : Component) : Window.ClearsBack c.clearIndex := by
  cases c with
  | hystrix | sres => exact Window.clearsBack_clearIndex
  | bbr => exact Bbr.clearsBack_clearIndex

theorem rotateLocked_eq (c : Component) {β : Type} {w : BucketRing β} (hw : w.Wf) (zero : β) (now : ℕ) :
    rotateLocked zero w now c = some (w.rotate zero now) :=
  Window.rotateWith_eq c.clearsBack hw zero now

theorem recordLocked_eq (c : Component) {β : Type} {w : BucketRing β} (hw : w.Wf) (zero : β) (f : β → β) (now : ℕ) :
    recordLocked zero f w now c = some (w.record zero f now) :=
  Window.recordWith_eq c.clearsBack hw zero f now

/-! ## Counters and events -/

def summary (c : Component) (es : List Event) : c.Bucket := es.foldl (fun b e => c.add e b) c.zero

theorem summary_snoc (c : Component) (es : List Event) (e : Event) :
    c.summary (es ++ [e]) = c.add e (c.summary es) := by
  simp [summary]

theorem summary_counts {R : Type} [AddMonoidWithOne R] (c : Component) (count : c.Bucket → R)
    (hzero : count c.zero = 0) (hadd : ∀ e b, count (c.add e b) = count b + 1) (es : List Event) :
    count (c.summary es) = es.length := by
  induction es using List.reverseRecOn with
  | nil => simpa [summary] using hzero
  | append_singleton es e ih =>
    rw [summary_snoc, hadd, ih, List.length_append, List.length_singleton, Nat.cast_add, Nat.cast_one]

variable (es : List Event)

theorem summary_hystrix : (summary .hystrix es).requests = es.length := by
  refine summary_counts .hystrix Hystrix.HystrixBucket.requests rfl (fun e b => ?_) es
  simp only [add]
  split_ifs <;> rfl

theorem summary_sres : (summary .sres es).requests = es.length := by
  refine summary_counts .sres Sres.SreBucket.requests rfl (fun e b => ?_) es
  simp only [add]
  split_ifs <;> rfl

theorem summary_bbr : (summary .bbr es).count = es.length :=
  summary_counts .bbr Bbr.Bucket.count rfl (fun _ _ => rfl) es

theorem foldl_estimate (bss : List (List Event)) (e : Bbr.Estimate) :
    ((bss.map (summary .bbr)).foldl Bbr.Estimate.add e).totalCount = e.totalCount + bss.flatten.length := by
  induction bss generalizing e with
  | nil => simp
  | cons es bss ih =>
    rw [List.map_cons, List.foldl_cons, ih, List.flatten_cons, List.length_append, Nat.cast_add, ← add_assoc]
    congr 1
    unfold Bbr.Estimate.add
    rw [summary_bbr]
    split_ifs with h
    · rfl
    · have : es.length = 0 := by omega
      simp [this]

theorem total_map_summary (c : Component) (r : BucketRing (List Event)) :
    c.total (r.map c.summary) = r.counted.length := by
  cases c with
  | hystrix =>
    simp only [total, Hystrix.totalReqs, BucketRing.map, List.map_map, Function.comp_def, summary_hystrix,
      BucketRing.counted, List.length_flatten]
  | sres =>
    simp only [total, Sres.statsLocked, BucketRing.map, List.map_map, Function.comp_def, summary_sres,
      BucketRing.counted, List.length_flatten]
  | bbr =>
    change (((r.buckets.map (summary .bbr)).foldl Bbr.Estimate.add ⟨0, 2 ^ 63 - 1, true⟩).totalCount : ℚ) = _
    rw [foldl_estimate]
    simp only [zero_add, Int.cast_natCast, BucketRing.counted]

end Component

/-! ## The code, with what its buckets count -/

structure Tracked (c : Component) where
  counters : BucketRing c.Bucket
  /-- the same calls on buckets that list their events -/
  events : BucketRing (List Event)
  recorded : List Event
  clock : ℕ

namespace Tracked

variable {c : Component}

/-- one operation; a panic (no bucket duration) leaves the buckets as they are -/
def step (t : Tracked c) : LogOp Event → Tracked c
  | .rotate now =>
    { t with
      counters := (Component.rotateLocked c.zero t.counters now c).getD t.counters
      events := (Component.rotateLocked [] t.events now c).getD t.events
      clock := now }
  | .record e =>
    { counters := (Component.recordLocked c.zero (c.add e) t.counters e.time c).getD t.counters
      events := (Component.recordLocked [] (· ++ [e]) t.events e.time c).getD t.events
      recorded := t.recorded ++ [e]
      clock := e.time }
  | .reset now =>
    { counters :=
        ((Component.rotateLocked c.zero t.counters now c).map (Hystrix.resetBucketsLocked c.zero)).getD t.counters
      events := ((Component.rotateLocked [] t.events now c).map (Hystrix.resetBucketsLocked [])).getD t.events
      recorded := []
      clock := now }

def start (c : Component) (n d t0 : ℕ) : Tracked c :=
  ⟨⟨d, List.replicate n c.zero, t0⟩, ⟨d, List.replicate n [], t0⟩, [], t0⟩

structure Tallies (t : Tracked c) : Prop where
  wf : t.events.Wf
  counters_eq : t.counters = t.events.map c.summary

variable {t : Tracked c}

theorem Tallies.wf_counters (h : t.Tallies) : t.counters.Wf := by
  rw [h.counters_eq]
  exact ⟨h.wf.duration_pos, by simpa [BucketRing.map] using h.wf.buckets_pos⟩

theorem tallies_start (c : Component) {n d : ℕ} (hn : 0 < n) (hd : 0 < d) (t0 : ℕ) : (start c n d t0).Tallies :=
  ⟨⟨hd, by simpa [start] using hn⟩, by simp [start, BucketRing.map, Component.summary]⟩

/-- the events alone are a log of the library -/
def log (t : Tracked c) : Log Event := ⟨t.events, t.recorded, t.clock⟩

theorem log_step (t : Tracked c) (o : LogOp Event) (h : t.Tallies) : (t.step o).log = t.log.step Event.time o := by
  cases o with
  | rotate now => simp [step, log, Log.step, Component.rotateLocked_eq c h.wf]
  | record e => simp [step, log, Log.step, Component.recordLocked_eq c h.wf]
  | reset now =>
    simp [step, log, Log.step, Component.rotateLocked_eq c h.wf, Hystrix.resetBucketsLocked, BucketRing.reset]

theorem tallies_step (t : Tracked c) (o : LogOp Event) (h : t.Tallies) : (t.step o).Tallies := by
  have hc := h.wf_counters
  cases o with
  | rotate now =>
    refine ⟨?_, ?_⟩
    · simpa [step, Component.rotateLocked_eq c h.wf] using h.wf.rotate [] now
    · simp only [step, Component.rotateLocked_eq c h.wf, Component.rotateLocked_eq c hc]
      rw [h.counters_eq]
      exact BucketRing.map_rotate c.summary [] t.events now
  | record e =>
    refine ⟨?_, ?_⟩
    · simpa [step, Component.recordLocked_eq c h.wf] using h.wf.record [] (· ++ [e]) e.time
    · simp only [step, Component.recordLocked_eq c h.wf, Component.recordLocked_eq c hc]
      rw [h.counters_eq]
      exact BucketRing.map_record c.summary [] (· ++ [e]) (c.add e) (fun es => c.summary_snoc es e) t.events e.time
  | reset now =>
    refine ⟨?_, ?_⟩
    · simpa [step, Component.rotateLocked_eq c h.wf, Hystrix.resetBucketsLocked, BucketRing.reset] using
        (h.wf.rotate [] now).reset []
    · simp only [step, Component.rotateLocked_eq c h.wf, Component.rotateLocked_eq c hc]
      rw [h.counters_eq]
      have hr := BucketRing.map_rotate c.summary [] t.events now
      change BucketRing.rotate c.zero _ now = _ at hr
      rw [hr]
      exact BucketRing.map_reset c.summary [] (t.events.rotate [] now)

/-- **The totals the code reads are the number of events listed.** -/
theorem tallies (h : t.Tallies) : c.total t.counters = t.events.counted.length := by
  rw [h.counters_eq, Component.total_map_summary]

/-- clock readings do not decrease -/
def Timely (t : Tracked c) (o : LogOp Event) : Prop := t.clock ≤ Log.instant Event.time o

instance (t : Tracked c) (o : LogOp Event) : Decidable (t.Timely o) := inferInstanceAs (Decidable (_ ≤ _))

/-- the number of buckets and their duration, and the durations a rotation counts -/
def n (t : Tracked c) : ℕ := t.counters.buckets.length

def d (t : Tracked c) : ℕ := t.counters.bucketDuration

def steps (t : Tracked c) (now : ℕ) : ℕ := (now - t.counters.lastRotate) / t.d

/-! ## No stale data -/

/-- the events the totals count, none of them recorded more than (n + 1) durations before the clock -/
def StaleFree (t : Tracked c) : Prop :=
  c.total t.counters = t.events.counted.length ∧ ∀ e ∈ t.events.counted, t.clock ≤ e.time + (t.n + 1) * t.d

/-- the operation rotates nothing, or clears the whole ring, or its phase in its bucket is not smaller than that of the
last rotation -/
def Aligned (t : Tracked c) (o : LogOp Event) : Prop :=
  t.steps (Log.instant Event.time o) = 0 ∨ t.n ≤ t.steps (Log.instant Event.time o) ∨
    t.counters.lastRotate % t.d ≤ Log.instant Event.time o % t.d

instance (t : Tracked c) (o : LogOp Event) : Decidable (t.Aligned o) := by unfold Aligned; infer_instance

theorem n_log (h : t.Tallies) : t.log.n = t.n := by simp [n, log, Log.n, h.counters_eq, BucketRing.map]

theorem d_log (h : t.Tallies) : t.log.d = t.d := by simp [d, log, Log.d, h.counters_eq, BucketRing.map]

theorem lastRotate_log (h : t.Tallies) : t.log.ring.lastRotate = t.counters.lastRotate := by
  simp [log, h.counters_eq, BucketRing.map]

theorem steps_log (h : t.Tallies) (now : ℕ) : t.log.ring.steps now = t.steps now := by
  simp [steps, d, BucketRing.steps, log, h.counters_eq, BucketRing.map]

theorem staleFree_log (h : t.Tallies) : t.StaleFree ↔ t.log.NoStale Event.time := by
  simp only [StaleFree, tallies h, true_and, Log.NoStale, n_log h, d_log h]
  rfl

theorem aligned_log (h : t.Tallies) (o : LogOp Event) : t.Aligned o ↔ t.log.Aligned Event.time o := by
  simp only [Aligned, Log.Aligned, Log.AlignedAt, n_log h, d_log h, steps_log h, lastRotate_log h]

theorem timely_along (h : t.Tallies) {ops : List (LogOp Event)} :
    Along step Timely t ops ↔ Along (Log.step Event.time) (Log.Timely Event.time) t.log ops := by
  have hT : ∀ (t : Tracked c) o, t.Tallies → (t.Timely o ↔ Log.Timely Event.time t.log o) := fun _ _ _ => Iff.rfl
  exact along_sim tallies_step log_step hT h

theorem inv_log_start (c : Component) {n d : ℕ} (hn : 0 < n) (hd : 0 < d) (t0 : ℕ) :
    (start c n d t0).log.Inv Event.time := Log.inv_start hn hd t0

/-- **No stale data while rotations are aligned.** If every operation is `Aligned`, then after each of them no event
recorded more than (n + 1) durations earlier is still counted in the sum over all buckets. -/
theorem staleFree_of_aligned (c : Component) {n d : ℕ} (hn : 0 < n) (hd : 0 < d) (t0 : ℕ) (ops : List (LogOp Event))
    (ht : Along step Timely (start c n d t0) ops) (ha : Along step Aligned (start c n d t0) ops) :
    Always step StaleFree (start c n d t0) ops := by
  have h := tallies_start c hn hd t0
  have hf : (start c n d t0).log.Fresh Event.time := by
    intro e he
    simp [start, log, BucketRing.counted] at he
  refine (always_sim tallies_step log_step (fun t h => staleFree_log h) h).2 ?_
  refine Log.noStale_always (inv_log_start c hn hd t0) hf ((timely_along h).1 ht) ?_
  exact (along_sim tallies_step log_step (fun t o h => aligned_log h o) h).1 ha

/-- an outcome at 22, and rotations every one and a half durations -/
def staleOps : List (LogOp Event) :=
  [.record ⟨1, 22, true, 0⟩, .rotate 30, .rotate 45, .rotate 60, .rotate 75]

/-- three buckets of duration 10: at 75 the event of 22 is still counted, 53 > (3 + 1) * 10 later -/
def StaleCounted (c : Component) : Prop :=
  Along step Timely (start c 3 10 15) staleOps ∧ (run step (start c 3 10 15) staleOps).clock = 75 ∧
    c.total (run step (start c 3 10 15) staleOps).counters = 1 ∧
    ⟨1, 22, true, 0⟩ ∈ (run step (start c 3 10 15) staleOps).events.counted ∧
    ¬ (run step (start c 3 10 15) staleOps).StaleFree

theorem staleCounted_of (c : Component) (ht : Along step Timely (start c 3 10 15) staleOps)
    (hn : (run step (start c 3 10 15) staleOps).n = 3) (hd : (run step (start c 3 10 15) staleOps).d = 10)
    (hm : ⟨1, 22, true, 0⟩ ∈ (run step (start c 3 10 15) staleOps).events.counted)
    (htot : c.total (run step (start c 3 10 15) staleOps).counters = 1) : StaleCounted c := by
  refine ⟨ht, rfl, htot, hm, ?_⟩
  intro hs
  have hle := hs.2 _ hm
  rw [hn, hd] at hle
  exact absurd hle (show ¬ 75 ≤ 22 + (3 + 1) * 10 by decide)

/-- **The rotation skips a bucket**: in all three windows a stale event is counted -/
theorem stale_counted : StaleCounted .hystrix ∧ StaleCounted .sres ∧ StaleCounted .bbr :=
  ⟨staleCounted_of .hystrix (by decide +kernel) (by decide +kernel) (by decide +kernel) (by decide +kernel)
      (by decide +kernel),
    staleCounted_of .sres (by decide +kernel) (by decide +kernel) (by decide +kernel) (by decide +kernel)
      (by decide +kernel),
    staleCounted_of .bbr (by decide +kernel) (by decide +kernel) (by decide +kernel) (by decide +kernel)
      (by decide +kernel)⟩

/-- rotations at growing phases -/
theorem staleFree_growing_phase :
    Always step StaleFree (start .hystrix 3 10 15) [.record ⟨1, 22, true, 0⟩, .rotate 36, .rotate 57] :=
  staleFree_of_aligned .hystrix (by decide) (by decide) 15 _ (by decide +kernel) (by decide +kernel)

/-! ## No live data lost -/

/-- an event the sum owes at `now`: less than (n - 1) durations old, or of the bucket that is current at `now` -/
def Live (t : Tracked c) (now : ℕ) (e : Event) : Prop :=
  now < e.time + (t.n - 1) * t.d ∨ e.time / t.d = now / t.d

instance (t : Tracked c) (now : ℕ) (e : Event) : Decidable (t.Live now e) := by unfold Live; infer_instance

/-- every live event recorded is among those the totals count -/
def LossFree (t : Tracked c) : Prop :=
  c.total t.counters = t.events.counted.length ∧ ∀ e ∈ t.recorded, t.Live t.clock e → e ∈ t.events.counted

/-- the operation rotates nothing, or its phase in its bucket is smaller than that of the last rotation, or no live
event was recorded past the bucket of the last rotation -/
def KeepsAt (t : Tracked c) (now : ℕ) : Prop :=
  t.steps now = 0 ∨ now % t.d < t.counters.lastRotate % t.d ∨
    ∀ e ∈ t.recorded, t.Live now e → e.time / t.d ≤ t.counters.lastRotate / t.d

instance (t : Tracked c) (now : ℕ) : Decidable (t.KeepsAt now) := by unfold KeepsAt; infer_instance

/-- a reset drops the events on purpose -/
def Keeps (t : Tracked c) : LogOp Event → Prop
  | .rotate now => t.KeepsAt now
  | .record e => t.KeepsAt e.time
  | .reset _ => True

theorem live_log (h : t.Tallies) (now : ℕ) (e : Event) : t.Live now e ↔ t.log.Protected Event.time now e := by
  simp only [Live, Log.Protected, n_log h, d_log h]

theorem lossFree_log (h : t.Tallies) : t.LossFree ↔ t.log.LossFree Event.time := by
  simp only [LossFree, tallies h, true_and, live_log h]
  rfl

theorem keepsAt_log (h : t.Tallies) (now : ℕ) : t.KeepsAt now ↔ t.log.KeepsAhead Event.time now := by
  simp only [KeepsAt, Log.KeepsAhead, live_log h, d_log h, steps_log h, lastRotate_log h]
  rfl

theorem keeps_log (h : t.Tallies) (o : LogOp Event) : t.Keeps o ↔ t.log.Keeps Event.time o := by
  cases o with
  | rotate now => exact keepsAt_log h now
  | record e => exact keepsAt_log h e.time
  | reset now => exact Iff.rfl

/-- **Live data is kept exactly when no aligned rotation meets it ahead.** After every operation all events less than (n
- 1) durations old, and all events of the current bucket, are counted, if and only if every operation `Keeps`. -/
theorem lossFree_iff_keeps (c : Component) {n d : ℕ} (hn : 0 < n) (hd : 0 < d) (t0 : ℕ) (ops : List (LogOp Event))
    (ht : Along step Timely (start c n d t0) ops) :
    Always step LossFree (start c n d t0) ops ↔ Along step Keeps (start c n d t0) ops := by
  have h := tallies_start c hn hd t0
  have hl : (start c n d t0).log.LossFree Event.time := by
    intro e he
    simp [start, log] at he
  rw [always_sim tallies_step log_step (fun t h => lossFree_log h) h,
    along_sim tallies_step log_step (fun t o h => keeps_log h o) h]
  exact Log.lossFree_iff (inv_log_start c hn hd t0) hl ((timely_along h).1 ht)

/-- two outcomes in one bucket, before and after the rotation counts its first duration -/
def lossOps : List (LogOp Event) := [.record ⟨1, 12, true, 0⟩, .record ⟨2, 16, true, 0⟩]

/-- three buckets of duration 10 made at 5: the record at 16 clears the bucket it shares with the event of 12 -/
def LiveLost (c : Component) : Prop :=
  Along step Timely (start c 3 10 5) lossOps ∧ (run step (start c 3 10 5) lossOps).Live 16 ⟨1, 12, true, 0⟩ ∧
    c.total (run step (start c 3 10 5) lossOps).counters = 1 ∧ ¬ (run step (start c 3 10 5) lossOps).LossFree

theorem liveLost_of (c : Component) (ht : Along step Timely (start c 3 10 5) lossOps)
    (hlive : (run step (start c 3 10 5) lossOps).Live 16 ⟨1, 12, true, 0⟩)
    (hm : ⟨1, 12, true, 0⟩ ∉ (run step (start c 3 10 5) lossOps).events.counted)
    (htot : c.total (run step (start c 3 10 5) lossOps).counters = 1) : LiveLost c :=
  ⟨ht, hlive, htot, fun hl => hm (hl.2 ⟨1, 12, true, 0⟩ (by simp [run, lossOps, step]) hlive)⟩

/-- **The rotation clears the current bucket**: in all three windows an event four nanoseconds old is lost -/
theorem live_event_lost : LiveLost .hystrix ∧ LiveLost .sres ∧ LiveLost .bbr :=
  ⟨liveLost_of .hystrix (by decide +kernel) (by decide +kernel) (by decide +kernel) (by decide +kernel),
    liveLost_of .sres (by decide +kernel) (by decide +kernel) (by decide +kernel) (by decide +kernel),
    liveLost_of .bbr (by decide +kernel) (by decide +kernel) (by decide +kernel) (by decide +kernel)⟩

/-- outcomes that stay within the bucket of the last rotation are kept -/
theorem lossFree_within_bucket :
    Always step LossFree (start .bbr 3 10 5) [.record ⟨1, 7, false, 3⟩, .record ⟨2, 16, false, 4⟩] := by
  refine (lossFree_iff_keeps .bbr (by decide) (by decide) 5 _ (by decide +kernel)).2 ⟨?_, ?_, trivial⟩
  · change (start Component.bbr 3 10 5).KeepsAt 7
    decide +kernel
  · change ((start Component.bbr 3 10 5).step (.record ⟨1, 7, false, 3⟩)).KeepsAt 16
    decide +kernel

end Tracked

end LuluExt.WindowMemory
