/-
Clients of the bbr limiter that keep its contract: `Done` once for every admitted request, and never otherwise.

A client calls `Allow`, or `Wait`, which calls `Allow` every ten milliseconds until a request is admitted or its context
ends. It calls `Done` when the request that was admitted has finished, with any round-trip time. One step is one call at
the limiter's mutex, so that runs are all interleavings of the clients and of `Close`. A panic inside `Allow` or `Done`
leaves the mutex locked, and every later call blocks.
-/
import LuluExt.Lib.Run
import LuluExt.RateLimit.Bbr

namespace LuluExt.Bbr.Clients

open Run RateLimit

variable {ι : Type} [DecidableEq ι]

structure Sys (ι : Type) where
  limiter : Limiter
  /-- the limiter's mutex after a panic -/
  locked : Bool
  /-- in `Wait`, between two rounds -/
  waiting : Finset ι
  /-- admitted, and not yet `Done` -/
  admitted : Finset ι

def start (cfg : Config) (now : ℕ) : Sys ι := ⟨new cfg now, false, ∅, ∅⟩

inductive Op (ι : Type) where
  | allow (c : ι) (now : ℕ)
  /-- a round of `Wait`, the first or a later one -/
  | wait (c : ι) (now : ℕ)
  | cancel (c : ι)
  | done (c : ι) (rtt : ℤ) (now : ℕ)
  | close

/-- the client calls `Allow`; a rejection leaves `back` in `Wait` -/
def attempt (fl : Go.Float64) (plat : Go.Platform) (s : Sys ι) (c : ι) (now : ℕ) (back : Finset ι) : Sys ι :=
  match allow fl plat s.limiter now with
  | none => { s with locked := true, waiting := s.waiting.erase c }
  | some ((ok, err), l) =>
    if err = none ∧ ok = true then
      { s with limiter := l, waiting := s.waiting.erase c, admitted := insert c s.admitted }
    else { s with limiter := l, waiting := back }

def step (fl : Go.Float64) (plat : Go.Platform) (s : Sys ι) : Op ι → Sys ι
  | .allow c now =>
    if s.locked ∨ c ∈ s.admitted ∨ c ∈ s.waiting then s else attempt fl plat s c now s.waiting
  | .wait c now =>
    if s.locked ∨ c ∈ s.admitted then s else attempt fl plat s c now (insert c s.waiting)
  | .cancel c => { s with waiting := s.waiting.erase c }
  | .done c rtt now =>
    if s.locked ∨ c ∉ s.admitted then s
    else
      match done s.limiter rtt now with
      | some l => { s with limiter := l, admitted := s.admitted.erase c }
      | none =>
        -- inflight is counted down before the rotation panics
        { s with
          limiter := { s.limiter with inflight := s.limiter.inflight - 1 }
          locked := true
          admitted := s.admitted.erase c }
  | .close => if s.locked then s else { s with limiter := close s.limiter }

/-! ## The books -/

structure Inv (cfg : Config) (s : Sys ι) : Prop where
  cfg_eq : s.limiter.cfg = cfg
  duration_eq : s.limiter.ring.bucketDuration = cfg.window / cfg.bucketCount
  buckets_pos : 0 < s.limiter.ring.buckets.length
  inflight_eq : s.limiter.inflight = s.admitted.card
  /-- a limiter whose buckets have no duration admits nobody -/
  zero_empty : s.limiter.ring.bucketDuration = 0 → s.admitted = ∅

inductive Turn (fl : Go.Float64) (plat : Go.Platform) (s : Sys ι) : Sys ι → Prop
  | admits (c : ι) (now : ℕ) (waiting : Finset ι) (hw : s.limiter.ring.Wf) (hc : c ∉ s.admitted) :
    Turn fl plat s { s with
      limiter := { s.limiter with
        ring := s.limiter.ring.rotate .zero now
        maxInflight := limitAt fl plat s.limiter now
        inflight := s.limiter.inflight + 1 }
      waiting := waiting
      admitted := insert c s.admitted }
  | rejects (now : ℕ) (waiting : Finset ι) (hw : s.limiter.ring.Wf) :
    Turn fl plat s { s with
      limiter := { s.limiter with
        ring := s.limiter.ring.rotate .zero now
        maxInflight := limitAt fl plat s.limiter now
        lastDropTime := some now }
      waiting := waiting }
  | done (c : ι) (rtt : ℤ) (now : ℕ) (hw : s.limiter.ring.Wf) (hc : c ∈ s.admitted) :
    Turn fl plat s { s with
      limiter := { s.limiter with
        inflight := s.limiter.inflight - 1
        ring := s.limiter.ring.record .zero (addDone rtt) now }
      admitted := s.admitted.erase c }
  | closes : Turn fl plat s { s with limiter := close s.limiter }
  /-- nothing, a panic of `Allow`, or a change among the clients in `Wait` -/
  | stays (locked : Bool) (waiting : Finset ι) : Turn fl plat s { s with locked := locked, waiting := waiting }

variable {fl : Go.Float64} {plat : Go.Platform} {cfg : Config} {s : Sys ι}

omit [DecidableEq ι] in
theorem inv_start (cfg : Config) (now : ℕ) : Inv cfg (start cfg now : Sys ι) :=
  ⟨rfl, rfl, by simpa [start, new] using cfg.bucketCount_pos, rfl, fun _ => rfl⟩

omit [DecidableEq ι] in
theorem Inv.wf (h : Inv cfg s) (hd : s.limiter.ring.bucketDuration ≠ 0) : s.limiter.ring.Wf :=
  ⟨Nat.pos_of_ne_zero hd, h.buckets_pos⟩

theorem turn_attempt (h : Inv cfg s) {c : ι} (hc : c ∉ s.admitted) (now : ℕ) (back : Finset ι) :
    Turn fl plat s (attempt fl plat s c now back) := by
  cases hclosed : s.limiter.closed with
  | true =>
    have heq : attempt fl plat s c now back = { s with waiting := back } := by
      simp [attempt, allow, hclosed]
    rw [heq]
    exact .stays s.locked back
  | false =>
    by_cases hd : s.limiter.ring.bucketDuration = 0
    · simp only [attempt, allow_none fl plat hd hclosed]
      exact .stays true (s.waiting.erase c)
    · have hw := h.wf hd
      simp only [attempt, allow_eq fl plat hw hclosed]
      by_cases hfull : s.limiter.inflight ≥ limitAt fl plat s.limiter now
      · simp only [if_pos hfull]
        exact .rejects now back hw
      · simp only [if_neg hfull]
        exact .admits c now (s.waiting.erase c) hw hc

theorem turn_step (h : Inv cfg s) (o : Op ι) : Turn fl plat s (step fl plat s o) := by
  have hsame : Turn fl plat s s := .stays s.locked s.waiting
  cases o with
  | allow c now =>
    simp only [step]
    split_ifs with hno
    · exact hsame
    · exact turn_attempt h (fun hc => hno (.inr (.inl hc))) now s.waiting
  | wait c now =>
    simp only [step]
    split_ifs with hno
    · exact hsame
    · exact turn_attempt h (fun hc => hno (.inr hc)) now (insert c s.waiting)
  | cancel c => exact .stays s.locked (s.waiting.erase c)
  | done c rtt now =>
    simp only [step]
    split_ifs with hno
    · exact hsame
    · have hc : c ∈ s.admitted := by
        by_contra hc
        exact hno (.inr hc)
      -- an admitted client is the proof that buckets have a duration
      have hw : s.limiter.ring.Wf := h.wf fun hd => by simp [h.zero_empty hd] at hc
      rw [done_eq hw]
      exact .done c rtt now hw hc
  | close =>
    simp only [step]
    split_ifs
    · exact hsame
    · exact .closes

theorem inv_turn {s' : Sys ι} (h : Inv cfg s) (ht : Turn fl plat s s') : Inv cfg s' := by
  have hin := h.inflight_eq
  cases ht with
  | admits c now waiting hw hc =>
    have hpos := hw.duration_pos
    refine ⟨h.cfg_eq, by simpa using h.duration_eq, (hw.rotate .zero now).buckets_pos, ?_, fun hd => ?_⟩
    · rw [Finset.card_insert_of_notMem hc, hin]
      norm_cast
    · simp only [BucketRing.rotate_bucketDuration] at hd
      omega
  | rejects now waiting hw =>
    exact ⟨h.cfg_eq, by simpa using h.duration_eq, (hw.rotate .zero now).buckets_pos, hin,
      fun hd => h.zero_empty (by simpa using hd)⟩
  | done c rtt now hw hc =>
    have hcard := Finset.card_erase_add_one hc
    refine ⟨h.cfg_eq, ?_, (hw.record .zero (addDone rtt) now).buckets_pos, ?_, fun hd => ?_⟩
    · simpa [BucketRing.record, BucketRing.update] using h.duration_eq
    · dsimp only
      omega
    · rw [h.zero_empty (by simpa [BucketRing.record, BucketRing.update] using hd), Finset.erase_empty]
  | closes | stays locked waiting => exact ⟨h.cfg_eq, h.duration_eq, h.buckets_pos, hin, h.zero_empty⟩

theorem inv_run (fl : Go.Float64) (plat : Go.Platform) (cfg : Config) (t0 : ℕ) (ops : List (Op ι)) :
    Inv cfg (run (step fl plat) (start cfg t0) ops) :=
  run_inv (I := Inv cfg) (fun _ o h => inv_turn h (turn_step h o)) (inv_start cfg t0) ops

omit [DecidableEq ι] in
/-- an open limiter that does not panic has computed its limit, and rejects exactly at it -/
theorem allow_limit (h : Inv cfg s) (hc : s.limiter.closed = false) {now : ℕ} {r : (Bool × Option GoError) × Limiter}
    (hr : allow fl plat s.limiter now = some r) :
    r.2.maxInflight = maxInflightOf fl plat cfg r.2.ring.buckets ∧
      (r.1.1 = false ↔ r.2.maxInflight ≤ s.admitted.card) := by
  have hd : s.limiter.ring.bucketDuration ≠ 0 := by
    intro hd
    rw [allow_none fl plat hd hc] at hr
    cases hr
  rw [allow_eq fl plat (h.wf hd) hc, Option.some.injEq] at hr
  subst hr
  by_cases hfull : s.limiter.inflight ≥ limitAt fl plat s.limiter now
  · simp only [if_pos hfull]
    exact ⟨by rw [limitAt, h.cfg_eq], iff_of_true trivial (h.inflight_eq ▸ hfull)⟩
  · simp only [if_neg hfull]
    exact ⟨by rw [limitAt, h.cfg_eq], iff_of_false Bool.noConfusion (h.inflight_eq ▸ hfull)⟩

omit [DecidableEq ι] in
theorem allow_idle (h : Inv cfg s) (hd : 0 < cfg.window / cfg.bucketCount) (hc : s.limiter.closed = false)
    (hnone : s.admitted = ∅) (now : ℕ) : (allow fl plat s.limiter now).map Prod.fst = some (true, none) := by
  have hw : s.limiter.ring.Wf := h.wf (by rw [h.duration_eq]; exact hd.ne')
  have hin : s.limiter.inflight = 0 := by simp [h.inflight_eq, hnone]
  have hlimit : 1 ≤ limitAt fl plat s.limiter now := maxInflightOf_pos fl plat s.limiter.cfg _
  rw [allow_eq fl plat hw hc, if_neg (by omega)]
  rfl

/-- **Admission.** While clients call `Done` once for each admitted request: inflight is the number of admitted requests
that are not done; an `Allow` of an open limiter rejects exactly when that number has reached the limit computed from
the window; the limit is at least one; and with nothing outstanding `Allow` admits, when buckets have a duration. -/
theorem admission_accounting (fl : Go.Float64) (plat : Go.Platform) (cfg : Config) (t0 : ℕ) (ops : List (Op ι)) :
    let s := run (step fl plat) (start cfg t0) ops
    s.limiter.inflight = s.admitted.card ∧
      (s.limiter.closed = false → ∀ now r, allow fl plat s.limiter now = some r →
        r.2.maxInflight = maxInflightOf fl plat cfg r.2.ring.buckets ∧
          (r.1.1 = false ↔ r.2.maxInflight ≤ s.admitted.card)) ∧
      (∀ buckets, 1 ≤ maxInflightOf fl plat cfg buckets) ∧
      (0 < cfg.window / cfg.bucketCount → s.limiter.closed = false → s.admitted = ∅ →
        ∀ now, (allow fl plat s.limiter now).map Prod.fst = some (true, none)) := by
  intro s
  have h : Inv cfg s := inv_run fl plat cfg t0 ops
  exact ⟨h.inflight_eq, fun hc now r hr => allow_limit h hc hr, maxInflightOf_pos fl plat cfg,
    fun hd hc hnone now => allow_idle h hd hc hnone now⟩

/-- a request is admitted, a second one waits in vain, and the first is done -/
def oneDone : List (Op ℕ) := [.allow 0 1, .wait 1 2, .cancel 1, .done 0 5 3]

theorem admission_accounting_oneDone :
    let s0 : Sys ℕ := start (defaultConfig Go.unrounded) 0
    (run (step Go.unrounded Go.amd64) s0 (oneDone.take 2)).waiting = {1} ∧
      (allow Go.unrounded Go.amd64 (run (step Go.unrounded Go.amd64) s0 oneDone).limiter 4).map Prod.fst =
        some (true, none) :=
  ⟨by decide +kernel,
    (admission_accounting Go.unrounded Go.amd64 (defaultConfig Go.unrounded) 0 oneDone).2.2.2 (by decide +kernel)
      (by decide +kernel) (by decide +kernel) 4⟩

end LuluExt.Bbr.Clients
