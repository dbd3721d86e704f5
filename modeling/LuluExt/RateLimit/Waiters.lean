/-
`Wait` calls and `Close`, for the token bucket and the bbr limiter.

Both `Wait`s are loops: a round at the limiter, then a select over the context and a timer; the token bucket also
selects on the channel `notify`, for which nothing in the package ever sends. A round of the token bucket looks at the
closed flag; a round of bbr calls `Allow` and takes every error for a reason to sleep again. One step is one round at
the mutex or one end of a sleep, so that runs are all interleavings of any number of callers.
-/
import LuluExt.Lib.Run
import LuluExt.RateLimit.TokenBucket
import LuluExt.RateLimit.Bbr

namespace LuluExt.Waiters

open Run RateLimit

variable {ι L R : Type} [DecidableEq ι]

/-! ## Callers of a limiter -/

inductive Verdict where
  | returns (err : Option GoError)
  | sleeps (d : ℤ)
deriving DecidableEq, Repr

/-- a limiter as its callers see it; `none` is a panic that leaves the mutex locked -/
structure Limits (L R : Type) where
  round : L → ℕ → Option (Verdict × L)
  /-- the other calls -/
  perform : L → R → Option L
  close : L → L

inductive Pc where
  | idle
  /-- in `Wait`, on the way to the mutex -/
  | ready
  /-- in `Wait`, in the select -/
  | asleep (d : ℤ)
  | returned (err : Option GoError)
  | panicked
deriving DecidableEq, Repr

structure Sys (ι L : Type) where
  limiter : L
  /-- the mutex after a panic -/
  locked : Bool
  /-- elements in the channel `notify` -/
  notify : ℕ
  pc : ι → Pc

def start (l : L) : Sys ι L := ⟨l, false, 0, fun _ => .idle⟩

inductive Op (ι R : Type) where
  | call (c : ι)
  | round (c : ι) (now : ℕ)
  /-- three ways to end a sleep -/
  | timer (c : ι)
  | notified (c : ι)
  | cancel (c : ι) (err : GoError)
  | request (r : R)
  | close
deriving DecidableEq, Repr

def step (k : Limits L R) (s : Sys ι L) : Op ι R → Sys ι L
  | .call c => if s.pc c = .idle then { s with pc := Function.update s.pc c .ready } else s
  | .round c now =>
    if s.locked ∨ s.pc c ≠ .ready then s
    else
      match k.round s.limiter now with
      | none => { s with locked := true, pc := Function.update s.pc c .panicked }
      | some (.returns err, l) => { s with limiter := l, pc := Function.update s.pc c (.returned err) }
      | some (.sleeps d, l) => { s with limiter := l, pc := Function.update s.pc c (.asleep d) }
  | .timer c =>
    match s.pc c with
    | .asleep _ => { s with pc := Function.update s.pc c .ready }
    | _ => s
  | .notified c =>
    match s.pc c, s.notify with
    | .asleep _, n + 1 => { s with notify := n, pc := Function.update s.pc c .ready }
    | _, _ => s
  | .cancel c err =>
    match s.pc c with
    | .asleep _ => { s with pc := Function.update s.pc c (.returned (some err)) }
    | _ => s
  | .request r =>
    if s.locked then s
    else
      match k.perform s.limiter r with
      | none => { s with locked := true }
      | some l => { s with limiter := l }
  | .close => if s.locked then s else { s with limiter := k.close s.limiter }

def Waits (s : Sys ι L) (c : ι) : Prop := s.pc c = .ready ∨ ∃ d, s.pc c = .asleep d

def Asleep (s : Sys ι L) (c : ι) : Prop := ∃ d, s.pc c = .asleep d

/-- the step does not end the sleep of `c` by its context -/
def Uncancelled (c : ι) : Op ι R → Prop
  | .cancel c' _ => c' ≠ c
  | _ => True

/-- the step does not end the sleep of `c` by its context or its timer -/
def Undisturbed (c : ι) : Op ι R → Prop
  | .cancel c' _ => c' ≠ c
  | .timer c' => c' ≠ c
  | _ => True

/-- the `Wait` of `c` can return `ErrLimited` without its context and its timer -/
def Releasable (k : Limits L R) (s : Sys ι L) (c : ι) : Prop :=
  ∃ ops : List (Op ι R), (∀ o ∈ ops, Undisturbed c o) ∧ (run (step k) s ops).pc c = .returned (some errLimited)

/-! ## What a step does -/

inductive Turn (k : Limits L R) (s : Sys ι L) : Op ι R → Sys ι L → Prop
  | stays (o : Op ι R) : Turn k s o s
  | calls (c : ι) (hc : s.pc c = .idle) : Turn k s (.call c) { s with pc := Function.update s.pc c .ready }
  | panics (c : ι) (now : ℕ) (hc : s.pc c = .ready) (hr : k.round s.limiter now = none) :
    Turn k s (.round c now) { s with locked := true, pc := Function.update s.pc c .panicked }
  | returns (c : ι) (now : ℕ) (err : Option GoError) (l : L) (hc : s.pc c = .ready)
    (hr : k.round s.limiter now = some (.returns err, l)) :
    Turn k s (.round c now) { s with limiter := l, pc := Function.update s.pc c (.returned err) }
  | sleeps (c : ι) (now : ℕ) (d : ℤ) (l : L) (hc : s.pc c = .ready)
    (hr : k.round s.limiter now = some (.sleeps d, l)) :
    Turn k s (.round c now) { s with limiter := l, pc := Function.update s.pc c (.asleep d) }
  | timer (c : ι) (d : ℤ) (hc : s.pc c = .asleep d) :
    Turn k s (.timer c) { s with pc := Function.update s.pc c .ready }
  | notified (c : ι) (d : ℤ) (n : ℕ) (hc : s.pc c = .asleep d) (hn : s.notify = n + 1) :
    Turn k s (.notified c) { s with notify := n, pc := Function.update s.pc c .ready }
  | cancelled (c : ι) (d : ℤ) (err : GoError) (hc : s.pc c = .asleep d) :
    Turn k s (.cancel c err) { s with pc := Function.update s.pc c (.returned (some err)) }
  | locks (r : R) (hr : k.perform s.limiter r = none) : Turn k s (.request r) { s with locked := true }
  | requests (r : R) (l : L) (hr : k.perform s.limiter r = some l) : Turn k s (.request r) { s with limiter := l }
  | closes : Turn k s .close { s with limiter := k.close s.limiter }

variable (k : Limits L R)

theorem turn_step (s : Sys ι L) (o : Op ι R) : Turn k s o (step k s o) := by
  cases o with
  | call c =>
    simp only [step]
    split_ifs with hc
    · exact .calls c hc
    · exact .stays _
  | round c now =>
    simp only [step]
    split_ifs with hno
    · exact .stays _
    · have hc : s.pc c = .ready := not_not.1 (not_or.1 hno).2
      rcases hr : k.round s.limiter now with _ | ⟨_ | _, l⟩
      · exact .panics c now hc hr
      · exact .returns c now _ l hc hr
      · exact .sleeps c now _ l hc hr
  | timer c =>
    simp only [step]
    split
    · exact .timer c _ ‹_›
    · exact .stays _
  | notified c =>
    simp only [step]
    split
    · exact .notified c _ _ ‹_› ‹_›
    · exact .stays _
  | cancel c err =>
    simp only [step]
    split
    · exact .cancelled c _ err ‹_›
    · exact .stays _
  | request r =>
    simp only [step]
    split_ifs
    · exact .stays _
    · rcases hr : k.perform s.limiter r with _ | l
      · exact .locks r hr
      · exact .requests r l hr
  | close =>
    simp only [step]
    split_ifs
    · exact .stays _
    · exact .closes

theorem notify_step (s : Sys ι L) (o : Op ι R) (h : s.notify = 0) : (step k s o).notify = 0 := by
  have hturn := turn_step k s o
  generalize step k s o = s' at hturn ⊢
  cases hturn with
  | notified c d n hc hn => omega
  | _ => exact h

variable {c : ι}

theorem update_other {pc : ι → Pc} {c' : ι} {p q : Pc} (hc : pc c = q) (hc' : pc c' ≠ q) :
    Function.update pc c' p c = q := by
  have hne : c ≠ c' := fun heq => hc' (heq ▸ hc)
  rw [Function.update_of_ne hne, hc]

theorem asleep_step {s : Sys ι L} {d : ℤ} (hn : s.notify = 0) (h : s.pc c = .asleep d)
    {o : Op ι R} (ho : Undisturbed c o) : (step k s o).pc c = .asleep d := by
  have hturn := turn_step k s o
  generalize step k s o = s' at hturn ⊢
  cases hturn with
  | stays => exact h
  | calls c' hc' | panics c' now hc' hr | returns c' now err l hc' hr => exact update_other h (by simp [hc'])
  | sleeps c' now d' l hc' hr => exact update_other h (by simp [hc'])
  | timer c' d' hc' | cancelled c' d' err hc' => exact (Function.update_of_ne (Ne.symm ho) ..).trans h
  | notified c' d' n hc' hn' => omega
  | locks r hr | requests r l hr | closes => exact h

theorem asleep_run {s : Sys ι L} {d : ℤ} (hn : s.notify = 0) (h : s.pc c = .asleep d)
    (ops : List (Op ι R)) (hops : ∀ o ∈ ops, Undisturbed c o) : (run (step k) s ops).pc c = .asleep d := by
  have halways : Always (step k) (fun s => s.pc c = .asleep d) s ops :=
    always_of_along (I := fun s => s.notify = 0 ∧ s.pc c = .asleep d) (C := fun _ o => Undisturbed c o)
      (fun _ h => h.2) (fun s o h ho => ⟨notify_step k s o h.1, asleep_step k h.1 h.2 ho⟩) ⟨hn, h⟩ (along_forall.2 hops)
  exact halways.last

/-! ## The two limiters -/

/-- the token bucket; the other call is `Allow` at an instant -/
def tokenBucket (plat : Go.Platform) : Limits TokenBucket.Limiter ℕ where
  round l now :=
    match TokenBucket.waitRound plat l now with
    | (.limited, l) => some (.returns (some errLimited), l)
    | (.granted, l) => some (.returns none, l)
    | (.blocked d, l) => some (.sleeps d, l)
  perform l now := some (TokenBucket.allow plat l now).2
  close := TokenBucket.close

inductive BbrRequest where
  | allow (now : ℕ)
  | done (rtt : ℤ) (now : ℕ)
deriving DecidableEq, Repr

def bbr (fl : Go.Float64) (plat : Go.Platform) : Limits Bbr.Limiter BbrRequest where
  round l now :=
    (Bbr.allow fl plat l now).map fun ((ok, err), l) =>
      -- the error is only compared with nil; ten milliseconds
      (if err = none ∧ ok = true then .returns none else .sleeps 10000000, l)
  perform l
    | .allow now => (Bbr.allow fl plat l now).map Prod.snd
    | .done rtt now => Bbr.done l rtt now
  close := Bbr.close

variable (fl : Go.Float64) (plat : Go.Platform)

theorem tokenBucket_round_closed {l : TokenBucket.Limiter} (hc : l.closed) (now : ℕ) :
    (tokenBucket plat).round l now = some (.returns (some errLimited), l) := by
  simp [tokenBucket, TokenBucket.waitRound, hc]

theorem bbr_round_closed {l : Bbr.Limiter} (hc : l.closed) (now : ℕ) :
    (bbr fl plat).round l now = some (.sleeps 10000000, l) := by
  simp [bbr, Bbr.allow, hc]

theorem tokenBucket_unlocked (s : Sys ι TokenBucket.Limiter) (o : Op ι ℕ) (h : s.locked = false) :
    (step (tokenBucket plat) s o).locked = false := by
  have hturn := turn_step (tokenBucket plat) s o
  generalize step (tokenBucket plat) s o = s' at hturn ⊢
  cases hturn with
  | panics c now hc hr =>
    rcases hround : TokenBucket.waitRound plat s.limiter now with ⟨_ | _ | _, l⟩ <;>
      simp [tokenBucket, hround] at hr
  | locks r hr => cases hr
  | _ => exact h

theorem bbr_perform_closed {l l' : Bbr.Limiter} {r : BbrRequest}
    (h : (bbr fl plat).perform l r = some l') (hc : l.closed) : l'.closed := by
  cases r with
  | allow now =>
    simp only [bbr, Bbr.allow, hc, if_true, Option.map_some, Option.some.injEq] at h
    rw [← h, hc]
  | done rtt now =>
    simp only [bbr, Bbr.done, Option.bind_eq_bind, Option.bind_eq_some_iff, Option.pure_def, Option.some.injEq] at h
    obtain ⟨ring, -, rfl⟩ := h
    exact hc

/-- a closed bbr limiter stays closed, and only their contexts let its callers go -/
theorem bbr_waits_step {s : Sys ι Bbr.Limiter} (hc : s.limiter.closed)
    (h : Waits s c) {o : Op ι BbrRequest} (ho : Uncancelled c o) :
    (step (bbr fl plat) s o).limiter.closed ∧ Waits (step (bbr fl plat) s o) c := by
  have hturn := turn_step (bbr fl plat) s o
  generalize step (bbr fl plat) s o = s' at hturn ⊢
  -- where another caller moved
  have hother : ∀ {c' : ι} (p : Pc), c' ≠ c → Waits { s with pc := Function.update s.pc c' p } c := by
    intro c' p hne
    simp only [Waits, Function.update_of_ne (Ne.symm hne)]
    exact h
  have hmoves : ∀ (c' : ι) (p : Pc), p = .ready ∨ (∃ d, p = .asleep d) →
      Waits { s with pc := Function.update s.pc c' p } c := by
    intro c' p hp
    by_cases hne : c' = c
    · simpa only [Waits, hne, Function.update_self] using hp
    · exact hother p hne
  cases hturn with
  | stays => exact ⟨hc, h⟩
  | calls c' hc' => exact ⟨hc, hmoves c' _ (.inl rfl)⟩
  | panics c' now hc' hr | returns c' now err l hc' hr =>
    rw [bbr_round_closed fl plat hc] at hr
    cases hr
  | sleeps c' now d l hc' hr =>
    rw [bbr_round_closed fl plat hc] at hr
    obtain ⟨-, rfl⟩ := Prod.mk.inj (Option.some.inj hr)
    exact ⟨hc, hmoves c' _ (.inr ⟨d, rfl⟩)⟩
  | timer c' d hc' | notified c' d n hc' hn => exact ⟨hc, hmoves c' _ (.inl rfl)⟩
  | cancelled c' d err hc' => exact ⟨hc, hother _ ho⟩
  | locks r hr => exact ⟨hc, h⟩
  | requests r l hr => exact ⟨bbr_perform_closed fl plat hr hc, h⟩
  | closes => exact ⟨rfl, h⟩

theorem bbr_waits_run {s : Sys ι Bbr.Limiter} (hc : s.limiter.closed)
    (h : Waits s c) (ops : List (Op ι BbrRequest)) (hops : ∀ o ∈ ops, Uncancelled c o) :
    Waits (run (step (bbr fl plat)) s ops) c := by
  have halways : Always (step (bbr fl plat)) (fun s => Waits s c) s ops :=
    always_of_along (I := fun s => s.limiter.closed ∧ Waits s c) (C := fun _ o => Uncancelled c o)
      (fun _ h => h.2) (fun _ _ h ho => bbr_waits_step fl plat h.1 h.2 ho) ⟨hc, h⟩ (along_forall.2 hops)
  exact halways.last

omit [DecidableEq ι] in
theorem Undisturbed.uncancelled {o : Op ι R} (h : Undisturbed c o) : Uncancelled c o := by
  cases o with
  | cancel c' err => exact h
  | _ => trivial

/-- **Closing a limiter.** In every state in which the limiter is closed: a caller in `Wait` of the token bucket can
return `ErrLimited` without its context and timer if and only if it is not asleep in the select; a caller in `Wait` of
bbr cannot, and stays there through everything but the end of its context. -/
theorem close_releases_iff (fl : Go.Float64) (plat : Go.Platform) :
    (∀ (l : TokenBucket.Limiter) (ops : List (Op ι ℕ)) (c : ι),
      (run (step (tokenBucket plat)) (start l) ops).limiter.closed = true →
      Waits (run (step (tokenBucket plat)) (start l) ops) c →
      (Releasable (tokenBucket plat) (run (step (tokenBucket plat)) (start l) ops) c ↔
        ¬ Asleep (run (step (tokenBucket plat)) (start l) ops) c)) ∧
    (∀ (l : Bbr.Limiter) (ops : List (Op ι BbrRequest)) (c : ι),
      (run (step (bbr fl plat)) (start l) ops).limiter.closed = true →
      Waits (run (step (bbr fl plat)) (start l) ops) c →
      ¬ Releasable (bbr fl plat) (run (step (bbr fl plat)) (start l) ops) c ∧
        ∀ more : List (Op ι BbrRequest), (∀ o ∈ more, Uncancelled c o) →
          Waits (run (step (bbr fl plat)) (start l) (ops ++ more)) c) := by
  constructor
  · intro l ops c hclosed hwaits
    have hnotify : (run (step (tokenBucket plat)) (start l) ops).notify = 0 :=
      run_inv (I := fun s : Sys ι TokenBucket.Limiter => s.notify = 0) (notify_step _) rfl ops
    have hunlocked : (run (step (tokenBucket plat)) (start l) ops).locked = false :=
      run_inv (I := fun s : Sys ι TokenBucket.Limiter => s.locked = false) (tokenBucket_unlocked plat) rfl ops
    generalize run (step (tokenBucket plat)) (start l) ops = s at *
    constructor
    · rintro ⟨more, hmore, hreturned⟩ ⟨d, hasleep⟩
      rw [asleep_run _ hnotify hasleep more hmore] at hreturned
      cases hreturned
    · intro hawake
      have hready : s.pc c = .ready := hwaits.resolve_right hawake
      -- its round finds the limiter closed
      refine ⟨[.round c 0], by simp [Undisturbed], ?_⟩
      simp [step, hunlocked, hready, tokenBucket_round_closed plat hclosed]
  · intro l ops c hclosed hwaits
    refine ⟨?_, fun more hmore => ?_⟩
    · rintro ⟨more, hmore, hreturned⟩
      rcases bbr_waits_run fl plat hclosed hwaits more fun o ho => (hmore o ho).uncancelled with hp | ⟨d, hp⟩ <;>
        rw [hp] at hreturned <;> cases hreturned
    · rw [run_append]
      exact bbr_waits_run fl plat hclosed hwaits more hmore

/-! ## Callers left behind -/

/-- one caller gets the only token, the other sleeps for a second; then the limiter is closed -/
def sleeperOps (R : Type) : List (Op Bool R) := [.call true, .round true 0, .call false, .round false 0, .close]

def one : TokenBucket.Limiter := ⟨1, 1, 1, 0, false, TokenBucket.three.burst_pos, TokenBucket.three.burst_pos⟩

/-- the sleeper is left to its timer, and what it finds afterwards is a closed limiter -/
theorem sleeper_stays :
    (run (step (tokenBucket Go.amd64)) (start one) (sleeperOps ℕ)).limiter.closed = true ∧
      (run (step (tokenBucket Go.amd64)) (start one) (sleeperOps ℕ)).pc false = .asleep 1000000000 ∧
      ¬ Releasable (tokenBucket Go.amd64) (run (step (tokenBucket Go.amd64)) (start one) (sleeperOps ℕ)) false ∧
      (run (step (tokenBucket Go.amd64)) (start one)
        (sleeperOps ℕ ++ [.timer false, .round false 1000000000])).pc false = .returned (some errLimited) := by
  have hasleep : (run (step (tokenBucket Go.amd64)) (start one) (sleeperOps ℕ)).pc false = .asleep 1000000000 := by
    decide +kernel
  refine ⟨by decide +kernel, hasleep, ?_, by decide +kernel⟩
  rintro ⟨more, hmore, hreturned⟩
  rw [asleep_run _ (by decide +kernel) hasleep more hmore] at hreturned
  cases hreturned

/-- once its timer has ended the sleep a caller of the token bucket is released; one of bbr finds the limiter closed and
sleeps again -/
theorem woken_released :
    Releasable (tokenBucket Go.amd64)
        (run (step (tokenBucket Go.amd64)) (start one) (sleeperOps ℕ ++ [.timer false])) false ∧
      Waits (run (step (bbr Go.unrounded Go.amd64)) (start (Bbr.new (Bbr.defaultConfig Go.unrounded) 0))
        (sleeperOps BbrRequest ++ [.timer false, .round false 10000000])) false := by
  obtain ⟨htoken, hbbr⟩ := close_releases_iff (ι := Bool) Go.unrounded Go.amd64
  constructor
  · have hready :
        (run (step (tokenBucket Go.amd64)) (start one) (sleeperOps ℕ ++ [.timer false])).pc false = .ready := by
      decide +kernel
    refine (htoken one _ false (by decide +kernel) (.inl hready)).2 ?_
    rintro ⟨d, hasleep⟩
    cases hready.symm.trans hasleep
  · refine (hbbr _ (sleeperOps BbrRequest) false (by decide +kernel) (.inr ⟨10000000, by decide +kernel⟩)).2 _ ?_
    simp [Uncancelled]

end LuluExt.Waiters
