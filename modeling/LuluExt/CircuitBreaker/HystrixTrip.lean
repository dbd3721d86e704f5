/-
What a trip of the hystrix breaker is based on.

Outcomes are counted in Closed and in Open; a rotation clears buckets, and the recovery of a half-open breaker clears
all of them. `History` runs the breaker and keeps what the code does not: the same calls on buckets that list their
outcomes, each with a number of its own, and the outcomes marked since the breaker last entered Closed.
-/
import LuluExt.CircuitBreaker.HystrixTrial

namespace LuluExt.Hystrix

open LuluExt.Run LuluExt.CircuitBreaker

/-- a marked outcome; no two have the same number -/
structure Outcome where
  id : ℕ
  failed : Bool
deriving DecidableEq, Repr

def tally (os : List Outcome) : HystrixBucket := ⟨os.length, os.countP Outcome.failed⟩

structure History where
  breaker : Breaker
  /-- the buckets, with the outcomes themselves -/
  events : BucketRing (List Outcome)
  /-- the outcomes marked since the breaker last entered Closed -/
  since : List Outcome
  /-- the outcomes marked at all -/
  next : ℕ

namespace History

def mark (h : History) (failed : Bool) (now evalNow : ℕ) : History where
  breaker := reported h.breaker (!failed) now evalNow
  events :=
    if h.breaker.state = .halfOpen then
      if failed = true then h.events.rotate [] now else (h.events.rotate [] now).reset []
    else h.events.record [] (· ++ [⟨h.next, failed⟩]) now
  since :=
    if h.breaker.state ≠ .closed ∧ (reported h.breaker (!failed) now evalNow).state = .closed then []
    else h.since ++ [⟨h.next, failed⟩]
  next := h.next + 1

def step (h : History) : Op → History
  | .markSuccess now evalNow => h.mark false now evalNow
  | .markFailure now evalNow => h.mark true now evalNow
  | .execute fn allowNow markNow evalNow =>
    match (allow h.breaker allowNow).1, fn with
    | some _, _ => { h with breaker := (allow h.breaker allowNow).2 }
    | none, .panics => { h with breaker := (allow h.breaker allowNow).2 }
    | none, .err _ => { h with breaker := (allow h.breaker allowNow).2 }.mark true markNow evalNow
    | none, .nil => { h with breaker := (allow h.breaker allowNow).2 }.mark false markNow evalNow
  | o => { h with breaker := Hystrix.step h.breaker o }

def start (cfg : Config) (now : ℕ) : History :=
  ⟨new cfg now, ⟨cfg.window / cfg.bucketCount, List.replicate cfg.bucketCount [], now⟩, [], 0⟩

theorem step_breaker (h : History) (o : Op) : (h.step o).breaker = Hystrix.step h.breaker o := by
  cases o with
  | execute fn allowNow markNow evalNow =>
    cases ha : (allow h.breaker allowNow).1 <;> cases fn <;>
      simp [step, Hystrix.step, execute_snd, ha, mark, reported]
  | _ => rfl

theorem run_breaker (h : History) (ops : List Op) :
    (run step h ops).breaker = run Hystrix.step h.breaker ops := by
  induction ops generalizing h with
  | nil => rfl
  | cons o ops ih =>
    rw [run_cons, run_cons, ih, step_breaker]

/-! ## The calls -/

/-- everything a call does to a history: nothing is counted, or one outcome is marked -/
theorem step_cases (h : History) (o : Op) :
    (∃ b, Quiet h.breaker b ∧ h.step o = { h with breaker := b }) ∨
    (∃ b failed now evalNow, Quiet h.breaker b ∧ h.step o = { h with breaker := b }.mark failed now evalNow) := by
  have hsame : Quiet h.breaker h.breaker := ⟨rfl, rfl, Iff.rfl⟩
  cases o with
  | allow now => exact .inl ⟨_, quiet_allow h.breaker now, rfl⟩
  | markSuccess now evalNow => exact .inr ⟨_, false, now, evalNow, hsame, rfl⟩
  | markFailure now evalNow => exact .inr ⟨_, true, now, evalNow, hsame, rfl⟩
  | execute fn allowNow markNow evalNow =>
    have hallowed := quiet_allow h.breaker allowNow
    simp only [step]
    split
    · exact .inl ⟨_, hallowed, rfl⟩
    · exact .inl ⟨_, hallowed, rfl⟩
    · exact .inr ⟨_, true, markNow, evalNow, hallowed, rfl⟩
    · exact .inr ⟨_, false, markNow, evalNow, hallowed, rfl⟩
  | state now => exact .inl ⟨_, quiet_pollState h.breaker now, rfl⟩
  | close => exact .inl ⟨_, quiet_close h.breaker, rfl⟩

/-! ## Totals -/

theorem tally_snoc (os : List Outcome) (o : Outcome) : tally (os ++ [o]) = addOutcome o.failed (tally os) := by
  cases hf : o.failed <;> simp [tally, addOutcome, addSuccess, addFailure, hf]

theorem totalReqs_tally (r : BucketRing (List Outcome)) : totalReqs (r.map tally) = r.counted.length := by
  simp only [totalReqs, BucketRing.map, List.map_map, BucketRing.counted, List.length_flatten]
  rfl

theorem totalErrs_tally (r : BucketRing (List Outcome)) :
    totalErrs (r.map tally) = r.counted.countP Outcome.failed := by
  simp only [totalErrs, BucketRing.map, List.map_map, BucketRing.counted, List.countP_flatten]
  rfl

/-! ## The history of a run -/

/-- the counters are those of the outcomes listed, which are distinct and were marked since the breaker last entered
Closed -/
structure Faithful (cfg : Config) (h : History) : Prop where
  cfg_eq : h.breaker.cfg = cfg
  wf : h.events.Wf
  ring_eq : h.breaker.ring = h.events.map tally
  nodup : h.events.counted.Nodup
  fresh : ∀ o ∈ h.events.counted, o.id < h.next
  since : ∀ o ∈ h.events.counted, o ∈ h.since

variable {cfg : Config} {h : History}

theorem Faithful.wf_ring (hf : Faithful cfg h) : h.breaker.ring.Wf := by
  rw [hf.ring_eq]
  exact ⟨hf.wf.duration_pos, by simpa [BucketRing.map] using hf.wf.buckets_pos⟩

theorem faithful_start (hd : 0 < cfg.window / cfg.bucketCount) (now : ℕ) : Faithful cfg (start cfg now) := by
  have hnone : (start cfg now).events.counted = [] := by simp [start, BucketRing.counted]
  refine ⟨rfl, ⟨hd, by simpa [start] using cfg.bucketCount_pos⟩, ?_, ?_, ?_, ?_⟩
  · simp [start, new, BucketRing.map, tally, HystrixBucket.zero]
  · simp [hnone]
  · simp [hnone]
  · simp [hnone]

theorem Faithful.withBreaker (hf : Faithful cfg h) {b : Breaker} (hb : Quiet h.breaker b) :
    Faithful cfg { h with breaker := b } :=
  ⟨hb.cfg_eq.trans hf.cfg_eq, hf.wf, hb.ring_eq.trans hf.ring_eq, hf.nodup, hf.fresh, hf.since⟩

theorem closed_of_evaluateLocked (b : Breaker) (now : ℕ) (h : (evaluateLocked b now).state = .closed) :
    b.state = .closed := by
  by_contra hs
  rw [evaluateLocked, if_pos hs] at h
  exact hs h

theorem mark_eq (hf : Faithful cfg h) (failed : Bool) (now evalNow : ℕ) : h.mark failed now evalNow =
    if h.breaker.state = .halfOpen then
      if failed then ⟨reopenTrial h.breaker (h.breaker.ring.rotate .zero now) now, h.events.rotate [] now,
        h.since ++ [⟨h.next, failed⟩], h.next + 1⟩
      else ⟨recoverTrial h.breaker (h.breaker.ring.rotate .zero now), (h.events.rotate [] now).reset [], [], h.next + 1⟩
    else
      ⟨evaluateLocked { h.breaker with ring := h.breaker.ring.record .zero (addOutcome failed) now } evalNow,
        h.events.record [] (· ++ [⟨h.next, failed⟩]) now, h.since ++ [⟨h.next, failed⟩], h.next + 1⟩ := by
  unfold mark
  rw [reported_eq hf.wf_ring, Bool.not_not]
  by_cases hs : h.breaker.state = .halfOpen
  · cases failed <;> simp [hs, recoverTrial, reopenTrial]
  · have hstays := closed_of_evaluateLocked
      { h.breaker with ring := h.breaker.ring.record .zero (addOutcome failed) now } evalNow
    simp only [if_neg hs]
    rw [if_neg fun hc => hc.1 (hstays hc.2)]

theorem Faithful.rotate_eq (hf : Faithful cfg h) (now : ℕ) :
    h.breaker.ring.rotate .zero now = (h.events.rotate [] now).map tally := by
  rw [hf.ring_eq]
  exact BucketRing.map_rotate tally [] h.events now

theorem Faithful.record_eq (hf : Faithful cfg h) (failed : Bool) (now : ℕ) :
    h.breaker.ring.record .zero (addOutcome failed) now =
      (h.events.record [] (· ++ [⟨h.next, failed⟩]) now).map tally := by
  rw [hf.ring_eq]
  exact BucketRing.map_record tally [] (· ++ [⟨h.next, failed⟩]) (addOutcome failed)
    (fun os => tally_snoc os ⟨h.next, failed⟩) h.events now

theorem faithful_mark (hf : Faithful cfg h) (failed : Bool) (now evalNow : ℕ) :
    Faithful cfg (h.mark failed now evalNow) := by
  have hsub := BucketRing.counted_rotate_sublist h.events now
  rw [mark_eq hf]
  split_ifs
  · refine ⟨hf.cfg_eq, hf.wf.rotate _ now, hf.rotate_eq now, hf.nodup.sublist hsub, fun o ho => ?_, fun o ho => ?_⟩
    · exact (hf.fresh o (hsub.subset ho)).trans (Nat.lt_succ_self _)
    · exact List.mem_append_left _ (hf.since o (hsub.subset ho))
  · -- the recovery clears all buckets
    have hnone := BucketRing.counted_reset (h.events.rotate [] now)
    refine ⟨hf.cfg_eq, (hf.wf.rotate _ now).reset _, ?_, by simp [hnone], by simp [hnone], by simp [hnone]⟩
    simp only [hf.rotate_eq]
    exact BucketRing.map_reset tally [] (h.events.rotate [] now)
  · -- the outcome is one more, and has a new number
    have hperm : (h.events.record [] (· ++ [⟨h.next, failed⟩]) now).counted.Perm
        (⟨h.next, failed⟩ :: (h.events.rotate [] now).counted) :=
      BucketRing.counted_update_perm (hf.wf.rotate _ now) _ now
    refine ⟨(evaluateLocked_cfg _ _).trans hf.cfg_eq, hf.wf.record _ _ now, ?_, ?_, fun o ho => ?_, fun o ho => ?_⟩
    · rw [evaluateLocked_ring]
      exact hf.record_eq failed now
    · rw [hperm.nodup_iff, List.nodup_cons]
      refine ⟨fun hmem => ?_, hf.nodup.sublist hsub⟩
      exact absurd (hf.fresh _ (hsub.subset hmem)) (lt_irrefl _)
    · rcases List.mem_cons.1 (hperm.mem_iff.1 ho) with rfl | ho
      · exact Nat.lt_succ_self _
      · exact (hf.fresh o (hsub.subset ho)).trans (Nat.lt_succ_self _)
    · rcases List.mem_cons.1 (hperm.mem_iff.1 ho) with rfl | ho
      · simp
      · exact List.mem_append_left _ (hf.since o (hsub.subset ho))

theorem faithful_step (o : Op) (hf : Faithful cfg h) : Faithful cfg (h.step o) := by
  rcases step_cases h o with ⟨b, hb, heq⟩ | ⟨b, failed, now, evalNow, hb, heq⟩ <;> rw [heq]
  · exact hf.withBreaker hb
  · exact faithful_mark (hf.withBreaker hb) failed now evalNow

/-! ## Trips -/

theorem evaluateLocked_open {b : Breaker} {now : ℕ} (hs : b.state = .closed)
    (h : (evaluateLocked b now).state = .open) : OverThreshold b.cfg b.ring := by
  by_contra hnot
  simp [evaluateLocked, hs, hnot] at h

theorem mark_trips (hf : Faithful cfg h) {failed : Bool} {now evalNow : ℕ} (hs : h.breaker.state = .closed)
    (hopen : (h.mark failed now evalNow).breaker.state = .open) :
    OverThreshold cfg (h.mark failed now evalNow).breaker.ring := by
  rw [mark_eq hf, if_neg (by simp [hs])] at hopen ⊢
  have hover : OverThreshold h.breaker.cfg (h.breaker.ring.record .zero (addOutcome failed) now) :=
    evaluateLocked_open (b := { h.breaker with ring := h.breaker.ring.record .zero (addOutcome failed) now }) hs hopen
  rw [evaluateLocked_ring]
  rwa [hf.cfg_eq] at hover

theorem step_trips (hf : Faithful cfg h) {o : Op} (hs : h.breaker.state = .closed)
    (hopen : (h.step o).breaker.state = .open) : OverThreshold cfg (h.step o).breaker.ring := by
  rcases step_cases h o with ⟨b, hb, heq⟩ | ⟨b, failed, now, evalNow, hb, heq⟩ <;> rw [heq] at hopen ⊢
  · cases (hb.closed_iff.2 hs).symm.trans hopen
  · exact mark_trips (hf.withBreaker hb) (hb.closed_iff.2 hs) hopen

end History

def history (cfg : Config) (t0 : ℕ) (ops : List Op) : History := run History.step (History.start cfg t0) ops

theorem history_breaker (cfg : Config) (t0 : ℕ) (ops : List Op) :
    (history cfg t0 ops).breaker = run step (new cfg t0) ops :=
  History.run_breaker (History.start cfg t0) ops

theorem history_faithful {cfg : Config} (hd : 0 < cfg.window / cfg.bucketCount) (t0 : ℕ) (ops : List Op) :
    History.Faithful cfg (history cfg t0 ops) :=
  run_inv (I := History.Faithful cfg) (fun _ o hf => History.faithful_step o hf) (History.faithful_start hd t0) ops

/-- **What trips the breaker.** Whenever an operation takes it from Closed to Open, its totals count distinct outcomes,
all marked since it last entered Closed, at least `requestVolumeThreshold` of them, and the share of failures among them
is at least `errorThreshold`. -/
theorem trip_counts (cfg : Config) (hd : 0 < cfg.window / cfg.bucketCount) (t0 : ℕ) (ops : List Op) (o : Op)
    (hclosed : (run step (new cfg t0) ops).state = .closed)
    (hopen : (run step (new cfg t0) (ops ++ [o])).state = .open) :
    let h := history cfg t0 (ops ++ [o])
    let ring := (run step (new cfg t0) (ops ++ [o])).ring
    cfg.requestVolumeThreshold ≤ h.since.length ∧
      h.events.counted.Nodup ∧ (∀ x ∈ h.events.counted, x ∈ h.since) ∧
      totalReqs ring = h.events.counted.length ∧ totalErrs ring = h.events.counted.countP Outcome.failed ∧
      cfg.requestVolumeThreshold ≤ totalReqs ring ∧
      cfg.errorThreshold ≤ (totalErrs ring : ℚ) / (totalReqs ring : ℚ) := by
  intro h ring
  have hbefore := history_faithful hd t0 ops
  have hafter : History.Faithful cfg h := history_faithful hd t0 (ops ++ [o])
  have hstep : h = (history cfg t0 ops).step o := by
    simp [h, history, run_append]
  have hring : ring = h.events.map tally := by
    rw [← hafter.ring_eq, history_breaker]
  have hover : OverThreshold cfg ring := by
    have htrips := History.step_trips (o := o) hbefore (by rwa [history_breaker])
      (by rw [← hstep, history_breaker]; exact hopen)
    rwa [← hstep, history_breaker] at htrips
  have hreqs : totalReqs ring = h.events.counted.length := by
    rw [hring, History.totalReqs_tally]
  have herrs : totalErrs ring = h.events.counted.countP Outcome.failed := by
    rw [hring, History.totalErrs_tally]
  have hvolume : cfg.requestVolumeThreshold ≤ totalReqs ring := not_lt.1 hover.1
  have hlength : h.events.counted.length ≤ h.since.length :=
    (hafter.nodup.subperm hafter.since).length_le
  exact ⟨hvolume.trans (hreqs.trans_le hlength), hafter.nodup, hafter.since, hreqs, herrs, hvolume, hover.2.2⟩

def volumeThree : Config := configure [withRequestVolumeThreshold 3]

/-- two outcomes that are out of the window when the next two come -/
def beforeTrip : List Op :=
  [.markSuccess 1 1, .markFailure 2 2, .markFailure 11000000000 11000000000, .markSuccess 12000000000 12000000000]

theorem trip_counts_rotated :
    let h := history volumeThree 0 (beforeTrip ++ [.markFailure 12500000000 12500000000])
    volumeThree.requestVolumeThreshold ≤ h.since.length ∧ h.since.length = 5 ∧
      h.events.counted = [⟨2, true⟩, ⟨3, false⟩, ⟨4, true⟩] := by
  have htrip := trip_counts volumeThree (by decide +kernel) 0 beforeTrip (.markFailure 12500000000 12500000000)
    (by decide +kernel) (by decide +kernel)
  exact ⟨htrip.1, by decide +kernel, by decide +kernel⟩

end LuluExt.Hystrix
