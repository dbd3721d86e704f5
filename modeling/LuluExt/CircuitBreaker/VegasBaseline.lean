/-
The baseline of the vegas breaker: the minimum of all samples, below the smoothed average.

Beside the breaker the model keeps every sample within the bounds that an operation has recorded. A sample below the
baseline becomes the baseline after it went into the average, and the average is rounded down; it still does not fall
below the baseline, since no sample did. `MarkSuccess` records a latency of 0, which is out of bounds.
-/
import LuluExt.CircuitBreaker.Vegas

namespace LuluExt.Vegas

open CircuitBreaker Run

/-! ## The samples of a run -/

/-- a breaker and the samples within the bounds that were recorded, the last one first -/
structure Sampled where
  breaker : Breaker
  samples : List ℤ

def Sampled.add (l : Sampled) (rtt : ℤ) : List ℤ :=
  if l.breaker.cfg.minRTT ≤ rtt ∧ rtt ≤ l.breaker.cfg.maxRTT then rtt :: l.samples else l.samples

def sampledStep (l : Sampled) (o : Op) : Sampled :=
  ⟨step l.breaker o, ((sampleOf l.breaker o).map l.add).getD l.samples⟩

/-- a breaker made by `New`, with the operations it went through -/
def sampled (cfg : Config) (ops : List Op) : Sampled := run sampledStep ⟨new cfg, []⟩ ops

theorem run_sampledStep (l : Sampled) (ops : List Op) : (run sampledStep l ops).breaker = run step l.breaker ops := by
  induction ops generalizing l with
  | nil => rfl
  | cons o ops ih => exact ih (sampledStep l o)

theorem sampled_breaker (cfg : Config) (ops : List Op) : (sampled cfg ops).breaker = run step (new cfg) ops :=
  run_sampledStep _ _

/-! ## The baseline -/

/-- the baseline is the least sample, and the average is above it -/
structure Least (b : Breaker) (samples : List ℤ) : Prop where
  minRTT_le : b.cfg.minRTT ≤ b.baseRTT
  base_le : b.baseRTT ≤ b.currentRTT
  le_maxRTT : b.currentRTT ≤ b.cfg.maxRTT
  least : IsLeast {rtt | rtt ∈ samples} b.baseRTT

structure Measured (l : Sampled) : Prop where
  count : l.breaker.sampleCount = l.samples.length
  unset : l.samples = [] → l.breaker.baseRTT = 0 ∧ l.breaker.currentRTT = 0
  least : l.samples ≠ [] → Least l.breaker l.samples

theorem Measured.sound {l : Sampled} (h : Measured l) : Sound l.breaker := by
  by_cases hnil : l.samples = []
  · exact .unset (h.unset hnil).1 (h.unset hnil).2
  · have hl := h.least hnil
    exact .sampled ⟨hl.minRTT_le, hl.base_le.trans hl.le_maxRTT⟩ ⟨hl.minRTT_le.trans hl.base_le, hl.le_maxRTT⟩

theorem measured_withState {l : Sampled} (h : Measured l) (s : State) (closed : Bool) :
    Measured ⟨{ l.breaker with state := s, closed }, l.samples⟩ :=
  ⟨h.count, h.unset, fun hne => ⟨(h.least hne).minRTT_le, (h.least hne).base_le, (h.least hne).le_maxRTT,
    (h.least hne).least⟩⟩

/-- a smaller sample becomes the baseline, and the average stays above the smaller of the two -/
theorem Least.add {b : Breaker} {samples : List ℤ} (h : Least b samples) {rtt : ℤ} (hlo : b.cfg.minRTT ≤ rtt)
    (hhi : rtt ≤ b.cfg.maxRTT) :
    Least { b with
      sampleCount := b.sampleCount + 1
      currentRTT := Smoothing.next 8 b.currentRTT rtt
      baseRTT := min b.baseRTT rtt } (rtt :: samples) := by
  refine ⟨le_min h.minRTT_le hlo, ?_, Smoothing.next_le (by decide) h.le_maxRTT hhi, ?_⟩
  · exact Smoothing.le_next (by decide) ((min_le_left _ _).trans h.base_le) (min_le_right _ _)
  · have hset : {x | x ∈ rtt :: samples} = insert rtt {x | x ∈ samples} := by
      ext x
      simp
    rw [hset, min_comm]
    exact h.least.insert rtt

theorem measured_update {l : Sampled} (h : Measured l) (rtt : ℤ) :
    Measured ⟨updateRTTLocked l.breaker rtt, l.add rtt⟩ := by
  rcases updateRTTLocked_cases h.sound rtt with ⟨hout, heq⟩ | ⟨hlo, hhi, hbase, heq⟩ | ⟨hlo, hhi, hbase, heq⟩
  · have hadd : l.add rtt = l.samples := if_neg (by omega)
    rw [heq, hadd]
    exact h
  · -- the first sample
    have hadd : l.add rtt = rtt :: l.samples := if_pos ⟨hlo, hhi⟩
    have hnil : l.samples = [] := by
      by_contra hne
      have := (h.least hne).minRTT_le
      have := l.breaker.cfg.minRTT_pos
      omega
    rw [heq, hadd]
    refine ⟨by simp [h.count], by simp, fun _ => ⟨hlo, le_rfl, hhi, ?_⟩⟩
    simp [hnil]
  · have hadd : l.add rtt = rtt :: l.samples := if_pos ⟨hlo, hhi⟩
    have hne : l.samples ≠ [] := fun hnil => hbase (h.unset hnil).1
    rw [heq, hadd]
    exact ⟨by simp [h.count], by simp, fun _ => (h.least hne).add hlo hhi⟩

/-! ## The warm-up -/

/-- the breaker is Closed until there are enough samples -/
def Warm (l : Sampled) : Prop := l.samples.length < l.breaker.cfg.warmupSamples → l.breaker.state = .closed

theorem evaluateLocked_early {b : Breaker} (h : b.sampleCount < b.cfg.warmupSamples) : evaluateLocked b = b :=
  if_pos (.inl h)

theorem length_le_add (l : Sampled) (rtt : ℤ) : l.samples.length ≤ (l.add rtt).length := by
  unfold Sampled.add
  split_ifs <;> simp

theorem Records.measured {l : Sampled} {o : Op} {x : Option ℤ} {b : Breaker} (hr : Records l.breaker o x b)
    (hmeasured : Measured l) (hwarm : Warm l) :
    Measured ⟨b, (x.map l.add).getD l.samples⟩ ∧ Warm ⟨b, (x.map l.add).getD l.samples⟩ := by
  cases hr with
  | quiet hs => exact ⟨measured_withState hmeasured _ _, fun hfew => hs (hwarm hfew)⟩
  | closes ho => exact ⟨measured_withState hmeasured _ true, hwarm⟩
  | @sample s hs rtt =>
    have hupdated := measured_update (measured_withState hmeasured s l.breaker.closed) rtt
    obtain ⟨s', heval⟩ := evaluateLocked_only_state (updateRTTLocked { l.breaker with state := s } rtt)
    constructor
    · rw [heval]
      exact measured_withState hupdated s' _
    · intro hfew
      -- the samples are too few to be evaluated, and were so before
      have hcfg : (evaluateLocked (updateRTTLocked { l.breaker with state := s } rtt)).cfg = l.breaker.cfg := by
        rw [heval]
        simp
      rw [hcfg] at hfew
      have hcount : (updateRTTLocked { l.breaker with state := s } rtt).sampleCount <
          (updateRTTLocked { l.breaker with state := s } rtt).cfg.warmupSamples := by
        rw [hupdated.count, updateRTTLocked_cfg]
        exact hfew
      simp only [evaluateLocked_early hcount, updateRTTLocked_state]
      exact hs (hwarm ((length_le_add l rtt).trans_lt hfew))

theorem measured_step {l : Sampled} (o : Op) (h : Measured l ∧ Warm l) :
    Measured (sampledStep l o) ∧ Warm (sampledStep l o) :=
  (records_step l.breaker o).measured h.1 h.2

/-! ## Runs -/

theorem Records.cfg_eq {b b' : Breaker} {o : Op} {x : Option ℤ} (hr : Records b o x b') : b'.cfg = b.cfg := by
  cases hr with
  | quiet hs | closes ho => rfl
  | sample hs rtt =>
    obtain ⟨s', heval⟩ := evaluateLocked_only_state (updateRTTLocked { b with state := _ } rtt)
    rw [heval]
    exact updateRTTLocked_cfg _ _

theorem run_cfg (cfg : Config) (ops : List Op) : (run step (new cfg) ops).cfg = cfg :=
  run_inv (I := fun b => b.cfg = cfg) (fun b o h => (records_step b o).cfg_eq.trans h) rfl ops

theorem inflation_nonneg {b : Breaker} {samples : List ℤ} (h : Least b samples) : 0 ≤ inflation b := by
  have hbase : (0 : ℚ) ≤ b.baseRTT := Int.cast_nonneg (b.cfg.minRTT_pos.le.trans h.minRTT_le)
  have hdiff : (0 : ℚ) ≤ (b.currentRTT - b.baseRTT : ℤ) := Int.cast_nonneg (sub_nonneg.2 h.base_le)
  exact div_nonneg hdiff hbase

/-- **The baseline of every run.** The sample count is that of the samples within the bounds; once there is one, the
baseline is the least of them and minRTT ≤ baseline ≤ average ≤ maxRTT; with fewer than `warmupSamples` of them the
breaker is Closed. -/
theorem baseline_least (cfg : Config) (ops : List Op) :
    (run step (new cfg) ops).sampleCount = (sampled cfg ops).samples.length ∧
    ((sampled cfg ops).samples ≠ [] →
      cfg.minRTT ≤ (run step (new cfg) ops).baseRTT ∧
      (run step (new cfg) ops).baseRTT ≤ (run step (new cfg) ops).currentRTT ∧
      (run step (new cfg) ops).currentRTT ≤ cfg.maxRTT ∧
      IsLeast {rtt | rtt ∈ (sampled cfg ops).samples} (run step (new cfg) ops).baseRTT ∧
      0 ≤ inflation (run step (new cfg) ops)) ∧
    ((sampled cfg ops).samples.length < cfg.warmupSamples → (run step (new cfg) ops).state = .closed) := by
  have hinit : Measured ⟨new cfg, []⟩ ∧ Warm ⟨new cfg, []⟩ :=
    ⟨⟨rfl, fun _ => ⟨rfl, rfl⟩, fun hne => absurd rfl hne⟩, fun _ => rfl⟩
  obtain ⟨hmeasured, hwarm⟩ : Measured (sampled cfg ops) ∧ Warm (sampled cfg ops) :=
    run_inv (I := fun l => Measured l ∧ Warm l) (fun _ o => measured_step o) hinit ops
  have hcfg : (sampled cfg ops).breaker.cfg = cfg := by rw [sampled_breaker, run_cfg]
  rw [← sampled_breaker]
  refine ⟨hmeasured.count, fun hne => ?_, fun hfew => hwarm (by rwa [hcfg])⟩
  have hleast := hmeasured.least hne
  have hlo := hleast.minRTT_le
  have hhi := hleast.le_maxRTT
  rw [hcfg] at hlo hhi
  exact ⟨hlo, hleast.base_le, hhi, hleast.least, inflation_nonneg hleast⟩

def threeCalls : List Op := [.recordLatency 5000000, .recordLatency 2000000, .markSuccess]

theorem baseline_least_two :
    (sampled defaultConfig threeCalls).samples = [2000000, 5000000] ∧
      IsLeast {rtt | rtt ∈ (sampled defaultConfig threeCalls).samples}
        (run step (new defaultConfig) threeCalls).baseRTT := by
  have hsamples : (sampled defaultConfig threeCalls).samples = [2000000, 5000000] := by decide +kernel
  obtain ⟨-, hleast, -⟩ := baseline_least defaultConfig threeCalls
  exact ⟨hsamples, (hleast (by rw [hsamples]; simp)).2.2.2.1⟩

end LuluExt.Vegas
