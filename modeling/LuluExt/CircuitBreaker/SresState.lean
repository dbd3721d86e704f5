/-
What `State` of the sres breaker says about `Allow`.

`Allow` rotates the window before it reads it and rejects everything once the breaker is closed. `State` computes the
same quotient, of the window as it was left by the last call that rotated it, and does not look at the closed flag.
-/
import LuluExt.Lib.Run
import LuluExt.CircuitBreaker.SresAcceptance

namespace LuluExt.Sres

open LuluExt.CircuitBreaker LuluExt.Run

/-! ## Calls -/

inductive Op where
  | allow (now : ℕ) (draw : ℚ)
  | markSuccess (now : ℕ)
  | markFailure (now : ℕ)
  | close

/-- one call; a call that panics does so before it writes, and the deferred unlock releases the mutex -/
def step (b : Breaker) : Op → Breaker
  | .allow now draw => ((allow b now draw).map Prod.snd).getD b
  | .markSuccess now => (markSuccess b now).getD b
  | .markFailure now => (markFailure b now).getD b
  | .close => close b

def RejectsAll (b : Breaker) (now : ℕ) : Prop :=
  ∀ draw, 0 ≤ draw → draw < 1 → (allow b now draw).map Prod.fst = some (some errCircuitOpen)

def AdmitsAll (b : Breaker) (now : ℕ) : Prop := ∀ draw, 0 ≤ draw → draw < 1 → Accepts b now draw

structure Agrees (b : Breaker) (now : ℕ) : Prop where
  open_iff : pollState b = .open ↔ RejectsAll b now
  closed_iff : pollState b = .closed ↔ AdmitsAll b now
  halfOpen_iff : pollState b = .halfOpen ↔ ¬ RejectsAll b now ∧ ¬ AdmitsAll b now

/-! ## The verdict on a window -/

def verdict (cfg : Config) (stats : WindowStats) : State :=
  if stats.requests = 0 then .closed else if stats.requests ≤ cfg.k * stats.errors then .open else .halfOpen

theorem pollState_eq (b : Breaker) : pollState b = verdict b.cfg (statsLocked b.ring) := by
  obtain ⟨hr, he⟩ := statsLocked_nonneg b.ring
  simp only [pollState, verdict]
  by_cases h0 : (statsLocked b.ring).requests = 0
  · rw [if_pos h0, if_pos h0]
  · simp only [acceptance_nonpos_iff b.cfg hr]
    -- with a request in the window the quotient is below one, so the last branch is never taken
    have hshare : 0 < 1 / ((statsLocked b.ring).requests + 1) := by positivity
    have hlt : acceptance b.cfg (statsLocked b.ring) < 1 := by
      have hle := acceptance_le b.cfg hr he
      linarith
    rw [if_pos hlt]

section

variable {b : Breaker} {now : ℕ}

theorem rejectsAll_of_closed (hc : b.closed) : RejectsAll b now := by
  intro draw _ _
  simp [allow, hc]

theorem not_admitsAll_of_rejectsAll (h : RejectsAll b now) : ¬ AdmitsAll b now := by
  intro hall
  have haccepts : Accepts b now 0 := hall 0 le_rfl one_pos
  rw [Accepts, h 0 le_rfl one_pos] at haccepts
  simp at haccepts

theorem rejectsAll_iff (hw : b.ring.Wf) (hc : b.closed = false) :
    RejectsAll b now ↔ verdict b.cfg (statsAt b now) = .open := by
  have hr0 : 0 ≤ (statsAt b now).requests := (statsLocked_nonneg _).1
  rw [RejectsAll, allow_never_iff b hw.buckets_pos hc, and_iff_right hw.duration_pos, verdict]
  by_cases h0 : (statsAt b now).requests = 0
  · simp [h0]
  · have hpos : 0 < (statsAt b now).requests := lt_of_le_of_ne hr0 (Ne.symm h0)
    rw [and_iff_right hpos]
    split_ifs with hle <;> simp [hle]

theorem admitsAll_iff (hw : b.ring.Wf) (hc : b.closed = false) :
    AdmitsAll b now ↔ verdict b.cfg (statsAt b now) = .closed := by
  have hverdict : verdict b.cfg (statsAt b now) = .closed ↔ (statsAt b now).requests = 0 := by
    simp only [verdict]
    split_ifs with h0 <;> simp [h0]
  rw [hverdict]
  constructor
  · intro h
    by_contra hr
    have hpos : 0 < (statsAt b now).requests := lt_of_le_of_ne (statsLocked_nonneg _).1 (Ne.symm hr)
    have hshare : 0 < 1 / ((statsAt b now).requests + 1) := by positivity
    have hone : 1 / ((statsAt b now).requests + 1) ≤ 1 := by
      rw [div_le_one (by linarith)]
      linarith
    exact not_accepts hw hc hr le_rfl (h (1 - 1 / ((statsAt b now).requests + 1)) (by linarith) (by linarith))
  · intro hr draw _ _
    exact accepts_of_empty hw hc hr

theorem panics_neither (hd : b.ring.bucketDuration = 0) (hc : b.closed = false) :
    ¬ RejectsAll b now ∧ ¬ AdmitsAll b now := by
  constructor
  · intro h
    have := h 0 le_rfl one_pos
    rw [allow_none hd hc] at this
    cases this
  · intro h
    have := h 0 le_rfl one_pos
    rw [Accepts, allow_none hd hc] at this
    cases this

theorem agrees_iff_of {v : State} (hr : RejectsAll b now ↔ v = .open) (ha : AdmitsAll b now ↔ v = .closed) :
    Agrees b now ↔ pollState b = v := by
  constructor
  · intro h
    have hopen := h.open_iff
    have hclosed := h.closed_iff
    cases hp : pollState b <;> cases v <;> simp_all
  · intro h
    refine ⟨by rw [h, hr], by rw [h, ha], ?_⟩
    rw [h, hr, ha]
    cases v <;> simp

end

/-! ## Reachable breakers -/

/-- the window keeps its shape, and without a bucket duration nothing is ever recorded -/
structure Shape (cfg : Config) (b : Breaker) : Prop where
  cfg_eq : b.cfg = cfg
  duration_eq : b.ring.bucketDuration = cfg.window / cfg.bucketCount
  buckets_pos : 0 < b.ring.buckets.length
  untouched : b.ring.bucketDuration = 0 → (statsLocked b.ring).requests = 0

theorem shape_new (cfg : Config) (now : ℕ) : Shape cfg (new cfg now) := by
  refine ⟨rfl, rfl, by simpa [new] using cfg.bucketCount_pos, fun _ => ?_⟩
  simp [new, statsLocked, SreBucket.zero]

theorem Shape.of_wf {cfg : Config} {b b' : Breaker} (h : Shape cfg b) (hw : b.ring.Wf) (hcfg : b'.cfg = b.cfg)
    (hd : b'.ring.bucketDuration = b.ring.bucketDuration) (hl : b'.ring.buckets.length = b.ring.buckets.length) :
    Shape cfg b' := by
  refine ⟨hcfg.trans h.cfg_eq, hd.trans h.duration_eq, hl ▸ hw.buckets_pos, fun h0 => ?_⟩
  exact absurd (hd.symm.trans h0) hw.duration_pos.ne'

theorem Shape.step {cfg : Config} {b : Breaker} (h : Shape cfg b) (o : Op) : Shape cfg (step b o) := by
  have hwf (hd : b.ring.bucketDuration ≠ 0) : b.ring.Wf := ⟨Nat.pos_of_ne_zero hd, h.buckets_pos⟩
  cases o with
  | allow now draw =>
    cases hc : b.closed with
    | true => simpa [Sres.step, allow, hc] using h
    | false =>
      by_cases hd : b.ring.bucketDuration = 0
      · simpa [Sres.step, allow_none hd hc] using h
      · simp only [Sres.step, allow_eq (hwf hd) hc, Option.map_some, Option.getD_some]
        split_ifs <;> exact h.of_wf (hwf hd) rfl (by simp) (by simp)
  | markSuccess now | markFailure now =>
    by_cases hd : b.ring.bucketDuration = 0
    · simpa [Sres.step, markSuccess_none hd, markFailure_none hd] using h
    · simp only [Sres.step, markSuccess_eq (hwf hd), markFailure_eq (hwf hd), Option.getD_some]
      exact h.of_wf (hwf hd) rfl (by simp [BucketRing.record, BucketRing.update]) (by simp [BucketRing.record])
  | close => exact { h with }

/-- the window as it was left has the verdict that it has after a rotation at `now`; of a closed breaker, it is Open -/
def UpToDate (b : Breaker) (now : ℕ) : Prop :=
  if b.closed then verdict b.cfg (statsLocked b.ring) = .open
  else 0 < b.ring.bucketDuration ∧ verdict b.cfg (statsLocked b.ring) = verdict b.cfg (statsAt b now)

theorem agrees_iff {cfg : Config} {b : Breaker} (h : Shape cfg b) (now : ℕ) : Agrees b now ↔ UpToDate b now := by
  unfold UpToDate
  cases hc : b.closed with
  | true =>
    have hreject : RejectsAll b now := rejectsAll_of_closed hc
    rw [if_pos rfl, agrees_iff_of (v := .open) (iff_of_true hreject rfl)
      (iff_of_false (not_admitsAll_of_rejectsAll hreject) (by simp)), pollState_eq]
  | false =>
    simp only [Bool.false_eq_true, if_false]
    by_cases hd : b.ring.bucketDuration = 0
    · obtain ⟨hnr, hna⟩ : ¬ RejectsAll b now ∧ ¬ AdmitsAll b now := panics_neither hd hc
      have hpoll : pollState b = .closed := by rw [pollState_eq, verdict, if_pos (h.untouched hd)]
      rw [agrees_iff_of (v := .halfOpen) (iff_of_false hnr (by simp)) (iff_of_false hna (by simp)), hpoll]
      simp [hd]
    · have hw : b.ring.Wf := ⟨Nat.pos_of_ne_zero hd, h.buckets_pos⟩
      rw [agrees_iff_of (rejectsAll_iff hw hc) (admitsAll_iff hw hc), pollState_eq, and_iff_right hw.duration_pos]

/-- **State and Allow.** At every instant of every run: Open, Closed and HalfOpen are reported exactly when an `Allow`
then rejects every draw, admits every draw, and neither, if and only if the window is `UpToDate`. It is, as long as no
bucket duration has passed since the last rotation of an open breaker. -/
theorem state_agrees_iff (cfg : Config) (now0 : ℕ) (ops : List Op) (now : ℕ) :
    (Agrees (run step (new cfg now0) ops) now ↔ UpToDate (run step (new cfg now0) ops) now) ∧
      ((run step (new cfg now0) ops).closed = false → cfg.bucketCount ≤ cfg.window →
        now < (run step (new cfg now0) ops).ring.lastRotate + cfg.window / cfg.bucketCount →
        Agrees (run step (new cfg now0) ops) now) := by
  have h : Shape cfg (run step (new cfg now0) ops) := run_inv (fun _ o h => h.step o) (shape_new cfg now0) ops
  generalize run step (new cfg now0) ops = b at h
  refine ⟨agrees_iff h now, fun hc hcount hnow => ?_⟩
  have hd : 0 < b.ring.bucketDuration := by
    rw [h.duration_eq]
    exact Nat.div_pos hcount cfg.bucketCount_pos
  have hsteps : b.ring.steps now = 0 := by
    rw [← h.duration_eq] at hnow
    rw [BucketRing.steps, Nat.div_eq_zero_iff_lt hd]
    omega
  rw [agrees_iff h, UpToDate, hc, statsAt, BucketRing.rotate_of_steps_eq_zero _ hsteps]
  exact ⟨hd, rfl⟩

/-- one failure, and then no traffic for a minute: Open is reported, and `Allow` admits whatever it draws -/
theorem expired_open :
    pollState (run step (new defaultConfig 0) [.markFailure 1]) = .open ∧
      (allow (run step (new defaultConfig 0) [.markFailure 1]) 60000000000 (1 / 2)).map Prod.fst = some none ∧
      ¬ Agrees (run step (new defaultConfig 0) [.markFailure 1]) 60000000000 := by
  refine ⟨by decide +kernel, by decide +kernel, fun h => ?_⟩
  have hreject := h.open_iff.1 (by decide +kernel) (1 / 2) (by norm_num) (by norm_num)
  revert hreject
  decide +kernel

end LuluExt.Sres
