/-
The vegas breaker: latency samples, their minimum and their smoothed average, and the state they imply.

Durations are integers (nanoseconds). Ratios are rationals where the source has float64: alpha and beta are read as the
decimals that are written, and a ratio is not rounded. The state changes only when a sample is recorded, and a failure
is recorded as a sample of maxRTT.

- `updateRTTLocked_cases`: a sample within the bounds goes into the average by the smoothing of the library;
- `records_step`: an operation records no sample, or one that is then evaluated;
- `Sound`: baseline and average are both unset, or both between minRTT and maxRTT; every operation keeps it.
-/
import LuluExt.CircuitBreaker.Basic
import LuluExt.Lib.Run
import LuluExt.Lib.Smoothing

namespace LuluExt.Vegas

open CircuitBreaker Run

structure Config where
  alpha : ℚ
  beta : ℚ
  warmupSamples : ℕ
  /-- nanoseconds -/
  minRTT : ℤ
  maxRTT : ℤ
  alpha_pos : 0 < alpha
  beta_pos : 0 < beta
  warmupSamples_pos : 0 < warmupSamples
  minRTT_pos : 0 < minRTT
  minRTT_le : minRTT ≤ maxRTT

def withAlpha (a : ℚ) (c : Config) : Config := if h : a > 0 then { c with alpha := a, alpha_pos := h } else c

def withBeta (b : ℚ) (c : Config) : Config := if h : b > 0 then { c with beta := b, beta_pos := h } else c

def withWarmupSamples (n : ℤ) (c : Config) : Config :=
  if h : n > 0 then { c with warmupSamples := n.toNat, warmupSamples_pos := Go.toNat_pos h } else c

/-- a millisecond, and thirty seconds: no option changes these -/
def defaultConfig : Config :=
  ⟨1 / 2, 3 / 10, 10, 1000000, 30000000000, by norm_num, by norm_num, by norm_num, by norm_num, by norm_num⟩

def configure (opts : List (Config → Config)) : Config := opts.foldl (fun c opt => opt c) defaultConfig

structure Breaker where
  cfg : Config
  /-- the minimum sample, 0 before the first -/
  baseRTT : ℤ
  /-- the smoothed sample, 0 before the first -/
  currentRTT : ℤ
  sampleCount : ℕ
  state : State
  closed : Bool

def new (cfg : Config) : Breaker := ⟨cfg, 0, 0, 0, .closed, false⟩

def allow (b : Breaker) : Option GoError :=
  if b.closed then some errCircuitOpen else if b.state = .open then some errCircuitOpen else none

def smooth (current rtt : ℤ) : ℤ := Go.trunc (current * (7 / 8 : ℚ) + rtt * (1 / 8 : ℚ))

def updateRTTLocked (b : Breaker) (rtt : ℤ) : Breaker :=
  if rtt < b.cfg.minRTT ∨ rtt > b.cfg.maxRTT then b
  else
    { b with
      sampleCount := b.sampleCount + 1
      currentRTT := if b.currentRTT = 0 then rtt else smooth b.currentRTT rtt
      baseRTT := if b.baseRTT = 0 ∨ rtt < b.baseRTT then rtt else b.baseRTT }

def inflation (b : Breaker) : ℚ := (b.currentRTT - b.baseRTT : ℤ) / b.baseRTT

def evaluateLocked (b : Breaker) : Breaker :=
  if b.sampleCount < b.cfg.warmupSamples ∨ b.baseRTT = 0 then b
  else
    match b.state with
    | .closed => if inflation b > b.cfg.alpha then { b with state := .open } else b
    | .open => if inflation b < b.cfg.beta then { b with state := .halfOpen } else b
    | .halfOpen =>
      if inflation b < b.cfg.beta then { b with state := .closed }
      else if inflation b > b.cfg.alpha then { b with state := .open } else b

def markFailure (b : Breaker) : Breaker :=
  if b.state = .halfOpen then { b with state := .open } else evaluateLocked (updateRTTLocked b b.cfg.maxRTT)

def recordLatency (b : Breaker) (rtt : ℤ) : Breaker :=
  let b := if b.state = .halfOpen then { b with state := .closed } else b
  evaluateLocked (updateRTTLocked b rtt)

def markSuccess (b : Breaker) : Breaker := recordLatency b 0

/-- `Execute` of a function that ends as `fn` after `elapsed` -/
def execute (b : Breaker) (fn : FnResult) (elapsed : ℤ) : FnResult × Breaker :=
  match allow b with
  | some e => (.err e, b)
  | none =>
    match fn with
    | .panics => (.panics, b)
    | .err e => (.err e, markFailure b)
    | .nil => (.nil, recordLatency b elapsed)

def close (b : Breaker) : Breaker := { b with closed := true }

inductive Op where
  | allow
  | markSuccess
  | markFailure
  | recordLatency (rtt : ℤ)
  | execute (fn : FnResult) (elapsed : ℤ)
  | state
  | close

def step (b : Breaker) : Op → Breaker
  | .allow => b
  | .markSuccess => markSuccess b
  | .markFailure => markFailure b
  | .recordLatency rtt => recordLatency b rtt
  | .execute fn elapsed => (execute b fn elapsed).2
  | .state => b
  | .close => close b

/-! ## Samples -/

theorem smooth_eq {current rtt : ℤ} (hc : 0 ≤ current) (hr : 0 ≤ rtt) :
    smooth current rtt = Smoothing.next 8 current rtt := by
  have hpos : (0 : ℚ) ≤ current * (7 / 8) + rtt * (1 / 8) := by positivity
  have hsum : (current * (7 / 8) + rtt * (1 / 8) : ℚ) = ((7 * current + rtt : ℤ) : ℚ) / ((8 : ℕ) : ℚ) := by
    push_cast
    ring
  unfold smooth Go.trunc
  rw [if_pos hpos, hsum, Rat.floor_intCast_div_natCast]
  rfl

/-- baseline and average are both unset, or both within the bounds of a sample -/
inductive Sound (b : Breaker) : Prop where
  | unset (hbase : b.baseRTT = 0) (hcurrent : b.currentRTT = 0) : Sound b
  | sampled (hbase : b.cfg.minRTT ≤ b.baseRTT ∧ b.baseRTT ≤ b.cfg.maxRTT)
      (hcurrent : b.cfg.minRTT ≤ b.currentRTT ∧ b.currentRTT ≤ b.cfg.maxRTT) : Sound b

variable {b : Breaker}

/-- a sample outside the bounds changes nothing; the first one sets baseline and average; any other one lowers the
baseline to itself and is smoothed into the average -/
theorem updateRTTLocked_cases (h : Sound b) (rtt : ℤ) :
    ((rtt < b.cfg.minRTT ∨ rtt > b.cfg.maxRTT) ∧ updateRTTLocked b rtt = b) ∨
    (b.cfg.minRTT ≤ rtt ∧ rtt ≤ b.cfg.maxRTT ∧ b.baseRTT = 0 ∧
      updateRTTLocked b rtt = { b with sampleCount := b.sampleCount + 1, currentRTT := rtt, baseRTT := rtt }) ∨
    (b.cfg.minRTT ≤ rtt ∧ rtt ≤ b.cfg.maxRTT ∧ b.baseRTT ≠ 0 ∧
      updateRTTLocked b rtt = { b with
        sampleCount := b.sampleCount + 1
        currentRTT := Smoothing.next 8 b.currentRTT rtt
        baseRTT := min b.baseRTT rtt }) := by
  have hmin := b.cfg.minRTT_pos
  by_cases hout : rtt < b.cfg.minRTT ∨ rtt > b.cfg.maxRTT
  · exact .inl ⟨hout, if_pos hout⟩
  obtain ⟨hlo, hhi⟩ : b.cfg.minRTT ≤ rtt ∧ rtt ≤ b.cfg.maxRTT := by simpa using hout
  unfold updateRTTLocked
  rw [if_neg hout]
  cases h with
  | unset hbase hcurrent => exact .inr (.inl ⟨hlo, hhi, hbase, by simp [hbase, hcurrent]⟩)
  | sampled hbase hcurrent =>
    have hb : b.baseRTT ≠ 0 := (hmin.trans_le hbase.1).ne'
    have hc : b.currentRTT ≠ 0 := (hmin.trans_le hcurrent.1).ne'
    have hs : smooth b.currentRTT rtt = Smoothing.next 8 b.currentRTT rtt :=
      smooth_eq (hmin.trans_le hcurrent.1).le (hmin.trans_le hlo).le
    refine .inr (.inr ⟨hlo, hhi, hb, ?_⟩)
    have hm : (if rtt < b.baseRTT then rtt else b.baseRTT) = min b.baseRTT rtt := by
      split_ifs <;> omega
    simp only [hb, hc, if_false, false_or, hs, hm]

theorem Sound.update (h : Sound b) (rtt : ℤ) : Sound (updateRTTLocked b rtt) := by
  rcases updateRTTLocked_cases h rtt with ⟨-, e⟩ | ⟨hlo, hhi, -, e⟩ | ⟨hlo, hhi, hb, e⟩
  · rw [e]
    exact h
  · rw [e]
    exact .sampled ⟨hlo, hhi⟩ ⟨hlo, hhi⟩
  · rw [e]
    cases h with
    | unset hbase _ => exact absurd hbase hb
    | sampled hbase hcurrent =>
      refine .sampled ⟨le_min hbase.1 hlo, (min_le_left _ _).trans hbase.2⟩ ⟨?_, ?_⟩
      · exact Smoothing.le_next (by decide) hcurrent.1 hlo
      · exact Smoothing.next_le (by decide) hcurrent.2 hhi

@[simp] theorem updateRTTLocked_cfg (b : Breaker) (rtt : ℤ) : (updateRTTLocked b rtt).cfg = b.cfg := by
  unfold updateRTTLocked
  split_ifs <;> rfl

@[simp] theorem updateRTTLocked_state (b : Breaker) (rtt : ℤ) : (updateRTTLocked b rtt).state = b.state := by
  unfold updateRTTLocked
  split_ifs <;> rfl

@[simp] theorem updateRTTLocked_closed (b : Breaker) (rtt : ℤ) : (updateRTTLocked b rtt).closed = b.closed := by
  unfold updateRTTLocked
  split_ifs <;> rfl

/-! ## Evaluation -/

theorem evaluateLocked_only_state (b : Breaker) : ∃ s, evaluateLocked b = { b with state := s } := by
  unfold evaluateLocked
  by_cases hwarm : b.sampleCount < b.cfg.warmupSamples ∨ b.baseRTT = 0
  · rw [if_pos hwarm]
    exact ⟨_, rfl⟩
  rw [if_neg hwarm]
  split <;> split_ifs <;> exact ⟨_, rfl⟩

/-- the samples so far are enough, and imply more inflation than a Closed breaker tolerates -/
def Degraded (b : Breaker) : Prop := b.cfg.warmupSamples ≤ b.sampleCount ∧ b.baseRTT ≠ 0 ∧ inflation b > b.cfg.alpha

instance (b : Breaker) : Decidable (Degraded b) := by unfold Degraded; infer_instance

theorem evaluateLocked_closed (hs : b.state = .closed) :
    evaluateLocked b = if Degraded b then { b with state := .open } else b := by
  by_cases hwarm : b.sampleCount < b.cfg.warmupSamples ∨ b.baseRTT = 0
  · have hnot : ¬ Degraded b := by
      intro hd
      rcases hwarm with hfew | hbase
      · exact absurd hd.1 (not_le.2 hfew)
      · exact hd.2.1 hbase
    rw [if_neg hnot]
    exact if_pos hwarm
  · obtain ⟨hmany, hbase⟩ : b.cfg.warmupSamples ≤ b.sampleCount ∧ b.baseRTT ≠ 0 := by simpa using hwarm
    have hiff : Degraded b ↔ inflation b > b.cfg.alpha := by simp [Degraded, hmany, hbase]
    unfold evaluateLocked
    rw [if_neg hwarm]
    simp only [hs, hiff]

/-! ## What an operation records -/

/-- the latency that `MarkFailure` hands on: none when it ends a trial -/
def failureSample (b : Breaker) : Option ℤ := if b.state = .halfOpen then none else some b.cfg.maxRTT

def sampleOf (b : Breaker) : Op → Option ℤ
  | .markSuccess => some 0
  | .markFailure => failureSample b
  | .recordLatency rtt => some rtt
  | .execute fn elapsed =>
    match allow b, fn with
    | some _, _ => none
    | none, .panics => none
    | none, .err _ => failureSample b
    | none, .nil => some elapsed
  | _ => none

/-- a step records no sample and leaves the measurements alone, or records one and evaluates them; it does not leave
Closed on the way -/
inductive Records (b : Breaker) (o : Op) : Option ℤ → Breaker → Prop where
  | quiet {s : State} (hs : b.state = .closed → s = .closed) : Records b o none { b with state := s }
  | closes (ho : o = .close) : Records b o none (close b)
  | sample {s : State} (hs : b.state = .closed → s = .closed) (rtt : ℤ) :
      Records b o (some rtt) (evaluateLocked (updateRTTLocked { b with state := s } rtt))

theorem records_markFailure (b : Breaker) (o : Op) : Records b o (failureSample b) (markFailure b) := by
  unfold failureSample markFailure
  split_ifs with hstate
  · exact .quiet (by simp [hstate])
  · exact .sample (s := b.state) id b.cfg.maxRTT

theorem records_recordLatency (b : Breaker) (o : Op) (rtt : ℤ) : Records b o (some rtt) (recordLatency b rtt) := by
  unfold recordLatency
  split_ifs
  · exact .sample (fun _ => rfl) rtt
  · exact .sample (s := b.state) id rtt

theorem records_step (b : Breaker) (o : Op) : Records b o (sampleOf b o) (step b o) := by
  have hsame : Records b o none b := .quiet (s := b.state) id
  cases o with
  | allow | state => exact hsame
  | close => exact .closes rfl
  | markFailure => exact records_markFailure b _
  | markSuccess => exact records_recordLatency b _ 0
  | recordLatency rtt => exact records_recordLatency b _ rtt
  | execute fn elapsed =>
    simp only [step, execute, sampleOf]
    cases allow b with
    | some e => exact hsame
    | none =>
      cases fn with
      | panics => exact hsame
      | err e => exact records_markFailure b _
      | nil => exact records_recordLatency b _ elapsed

theorem Sound.withState (h : Sound b) (s : State) (closed : Bool) : Sound { b with state := s, closed } := by
  cases h with
  | unset hbase hcurrent => exact .unset hbase hcurrent
  | sampled hbase hcurrent => exact .sampled hbase hcurrent

theorem Records.sound {b' : Breaker} {o : Op} {x : Option ℤ} (hr : Records b o x b') (h : Sound b) : Sound b' := by
  cases hr with
  | quiet hs => exact h.withState _ b.closed
  | closes ho => exact h.withState b.state true
  | sample hs rtt =>
    obtain ⟨s', heval⟩ := evaluateLocked_only_state (updateRTTLocked { b with state := _ } rtt)
    rw [heval]
    exact ((h.withState _ b.closed).update rtt).withState s' _

theorem Sound.step (h : Sound b) (o : Op) : Sound (step b o) := (records_step b o).sound h

def Reachable (b : Breaker) : Prop := ∃ cfg ops, b = run step (new cfg) ops

theorem Reachable.sound (h : Reachable b) : Sound b := by
  obtain ⟨cfg, ops, rfl⟩ := h
  exact run_inv (fun _ o hs => hs.step o) (.unset rfl rfl) ops

end LuluExt.Vegas
