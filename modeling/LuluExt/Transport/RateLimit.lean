/-
The HTTP rate-limit middleware over a bbr limiter.

The middleware is written against the limiter interface: it calls `Allow`, or `Wait` (which calls `Allow` every ten
milliseconds), and then the handler. It never calls `Done`, which bbr needs to count a request out again. A panic inside
`Allow` (a bucket duration of zero) leaves the limiter's mutex locked: every later attempt blocks.

The state is the limiter with the requests by where they are; one step is one attempt at the limiter, the end of a wait,
or the end of a handler, so that runs are all interleavings of requests.
-/
import LuluExt.RateLimit.Bbr
import LuluExt.Transport.Http

namespace LuluExt.Http.Limiting

open Run Bbr RateLimit

/-- `options` of the rate-limit middleware; a request is its number -/
structure Options where
  waitMode : Bool
  errorHandler : ℕ → Option GoError → Behaviour
  skipFunc : Option (ℕ → Bool)

/-- `http.Error(w, "Too Many Requests", http.StatusTooManyRequests)` -/
def defaultErrorHandler (_ : ℕ) (_ : Option GoError) : Behaviour := ⟨[.header 429 false, .body], false⟩

def skips (cfg : Options) (r : ℕ) : Bool :=
  match cfg.skipFunc with
  | some f => f r
  | none => false

inductive Entry where
  | next
  | reject (answer : Behaviour)
  | sleep

/-- `Allow` of the middleware, or one round of the limiter's `Wait`; `none` when `Allow` panics -/
def attempt (fl : Go.Float64) (plat : Go.Platform) (cfg : Options) (l : Limiter) (r now : ℕ) :
    Option (Entry × Limiter) := do
  let ((ok, err), l) ← allow fl plat l now
  if cfg.waitMode then
    return (if err = none ∧ ok = true then .next else .sleep, l)
  else
    return (if ok = false ∨ err ≠ none then .reject (cfg.errorHandler r err) else .next, l)

structure Sys where
  limiter : Limiter
  /-- the limiter's mutex after a panic in `Allow` -/
  locked : Bool
  /-- in `Wait`, between two rounds -/
  waiting : List ℕ
  /-- admitted, and the handler has not ended -/
  executing : List ℕ
  /-- skipped by the middleware, and the handler has not ended -/
  bypassing : List ℕ
  answered : List (ℕ × Behaviour)

inductive Op where
  | arrive (r now : ℕ)
  | retry (r now : ℕ)
  /-- the request's context ends during a `Wait` -/
  | cancel (r : ℕ) (e : GoError)
  /-- the handler returns or panics: the middleware does nothing after it -/
  | finish (r : ℕ)

def start (cfg : Config) (now : ℕ) : Sys := ⟨Bbr.new cfg now, false, [], [], [], []⟩

/-- an attempt at the limiter; on a locked mutex it blocks -/
def enter (fl : Go.Float64) (plat : Go.Platform) (cfg : Options) (s : Sys) (r now : ℕ) : Sys :=
  if s.locked then s
  else
    match attempt fl plat cfg s.limiter r now with
    | none => { s with locked := true, waiting := s.waiting.erase r }
    | some (.next, l) => { s with limiter := l, waiting := s.waiting.erase r, executing := r :: s.executing }
    | some (.sleep, l) => { s with limiter := l, waiting := r :: s.waiting.erase r }
    | some (.reject answer, l) => { s with limiter := l, answered := s.answered ++ [(r, answer)] }

def step (fl : Go.Float64) (plat : Go.Platform) (cfg : Options) (s : Sys) : Op → Sys
  | .arrive r now => if skips cfg r then { s with bypassing := r :: s.bypassing } else enter fl plat cfg s r now
  | .retry r now => if r ∈ s.waiting then enter fl plat cfg s r now else s
  | .cancel r e =>
    if r ∈ s.waiting then
      { s with waiting := s.waiting.erase r, answered := s.answered ++ [(r, cfg.errorHandler r (some e))] }
    else s
  | .finish r => { s with executing := s.executing.erase r, bypassing := s.bypassing.erase r }

/-- inflight counts the admitted requests that execute, and when none does a request that arrives is admitted -/
def Accurate (fl : Go.Float64) (plat : Go.Platform) (cfg : Options) (s : Sys) : Prop :=
  s.limiter.inflight = s.executing.length ∧
    (s.executing = [] → ∀ r now, skips cfg r = false → r ∈ (step fl plat cfg s (.arrive r now)).executing)

def Ends (s : Sys) : Op → Prop
  | .finish r => r ∈ s.executing
  | _ => False

/-- buckets have a duration, the mutex is free, and nothing has been lost -/
structure Inv (s : Sys) : Prop where
  wf : s.limiter.ring.Wf
  not_closed : s.limiter.closed = false
  not_locked : s.locked = false
  inflight_eq : s.limiter.inflight = s.executing.length

variable {fl : Go.Float64} {plat : Go.Platform} {cfg : Options} {s : Sys}

theorem enter_cases (fl : Go.Float64) (plat : Go.Platform) (cfg : Options) (h : Inv s) (r now : ℕ) :
    (∃ l, l.ring.Wf ∧ l.closed = false ∧ l.inflight = s.limiter.inflight + 1 ∧
      enter fl plat cfg s r now =
        { s with limiter := l, waiting := s.waiting.erase r, executing := r :: s.executing }) ∨
    (0 < s.limiter.inflight ∧ ∃ l waiting answered,
      l.ring.Wf ∧ l.closed = false ∧ l.inflight = s.limiter.inflight ∧
        enter fl plat cfg s r now = { s with limiter := l, waiting := waiting, answered := answered }) := by
  obtain ⟨ring, limit, hw, hpos, hcase⟩ := allow_cases fl plat h.wf h.not_closed now
  rcases hcase with ⟨hfull, e⟩ | ⟨hfree, e⟩
  · refine .inr ⟨by omega, { s.limiter with ring := ring, maxInflight := limit, lastDropTime := some now }, ?_⟩
    cases hmode : cfg.waitMode with
    | true =>
      refine ⟨r :: s.waiting.erase r, s.answered, hw, h.not_closed, rfl, ?_⟩
      simp [enter, h.not_locked, attempt, e, hmode]
    | false =>
      refine ⟨s.waiting, s.answered ++ [(r, cfg.errorHandler r (some errLimited))], hw, h.not_closed, rfl, ?_⟩
      simp [enter, h.not_locked, attempt, e, hmode]
  · refine .inl ⟨{ s.limiter with ring := ring, maxInflight := limit, inflight := s.limiter.inflight + 1 }, hw,
      h.not_closed, rfl, ?_⟩
    cases cfg.waitMode with
    | true | false => simp [enter, h.not_locked, attempt, e]

theorem inv_enter (h : Inv s) (r now : ℕ) : Inv (enter fl plat cfg s r now) := by
  have hin := h.inflight_eq
  rcases enter_cases fl plat cfg h r now with ⟨l, hw, hc, hl, e⟩ | ⟨-, l, ws, as, hw, hc, hl, e⟩
  · rw [e]
    exact ⟨hw, hc, h.not_locked, by simp [hl, hin]⟩
  · rw [e]
    exact ⟨hw, hc, h.not_locked, hl.trans hin⟩

theorem inv_step (h : Inv s) (o : Op) (hends : ¬ Ends s o) : Inv (step fl plat cfg s o) := by
  cases o with
  | arrive r now =>
    simp only [step]
    split_ifs
    · exact ⟨h.wf, h.not_closed, h.not_locked, h.inflight_eq⟩
    · exact inv_enter h r now
  | retry r now =>
    simp only [step]
    split_ifs
    · exact inv_enter h r now
    · exact h
  | cancel r e =>
    simp only [step]
    split_ifs
    · exact ⟨h.wf, h.not_closed, h.not_locked, h.inflight_eq⟩
    · exact h
  | finish r =>
    refine ⟨h.wf, h.not_closed, h.not_locked, ?_⟩
    simp only [step, List.erase_of_not_mem hends]
    exact h.inflight_eq

theorem accurate_of_inv (h : Inv s) : Accurate fl plat cfg s := by
  refine ⟨h.inflight_eq, fun hidle r now hskip => ?_⟩
  have hzero : s.limiter.inflight = 0 := by rw [h.inflight_eq, hidle]; rfl
  simp only [step, hskip]
  rcases enter_cases fl plat cfg h r now with ⟨l, -, -, -, e⟩ | ⟨hpos, -⟩
  · simp [e]
  · exact absurd hzero hpos.ne'

theorem not_accurate_of_ends (h : Inv s) {o : Op} (hends : Ends s o) :
    ¬ Accurate fl plat cfg (step fl plat cfg s o) := by
  cases o with
  | finish r =>
    intro hacc
    have hlen : (s.executing.erase r).length + 1 = s.executing.length := List.length_erase_add_one hends
    have hsame : s.limiter.inflight = (s.executing.erase r).length := hacc.1
    rw [h.inflight_eq] at hsame
    omega
  | arrive r now | retry r now | cancel r e => exact absurd hends id

theorem not_accurate_of_zero (hd : s.limiter.ring.bucketDuration = 0) (hc : s.limiter.closed = false)
    (hidle : s.executing = []) {r : ℕ} (hskip : skips cfg r = false) : ¬ Accurate fl plat cfg s := by
  intro hacc
  have hmem := hacc.2 hidle r 0 hskip
  simp only [step, enter, attempt, allow_none fl plat hd hc] at hmem
  split_ifs at hmem <;> simp [hidle] at hmem

structure Idle (s : Sys) : Prop where
  inflight_eq : s.limiter.inflight = 0
  waiting_eq : s.waiting = []
  executing_eq : s.executing = []

theorem idle_step (hall : ∀ r, skips cfg r) (h : Idle s) (o : Op) : Idle (step fl plat cfg s o) := by
  cases o with
  | arrive r now =>
    rw [step, if_pos (hall r)]
    exact ⟨h.inflight_eq, h.waiting_eq, h.executing_eq⟩
  | retry r now | cancel r e =>
    rw [step, if_neg (by simp [h.waiting_eq])]
    exact h
  | finish r => exact ⟨h.inflight_eq, h.waiting_eq, by simp [step, h.executing_eq]⟩

theorem Idle.not_ends (h : Idle s) (o : Op) : ¬ Ends s o := by
  cases o with
  | finish r => simp [Ends, h.executing_eq]
  | arrive r now | retry r now | cancel r e => exact id

/-- **Inflight is accurate exactly until a request ends.** In all states of a run inflight is the number of admitted
requests whose handler has not ended, and an idle limiter admits every request that is not skipped, if and only if
buckets have a duration (or every request is skipped) and no step of the run ends an admitted request. -/
theorem accurate_iff (fl : Go.Float64) (plat : Go.Platform) (cfg : Options) (bbr : Config) (now0 : ℕ) (ops : List Op) :
    Always (step fl plat cfg) (Accurate fl plat cfg) (start bbr now0) ops ↔
      (bbr.window / bbr.bucketCount ≠ 0 ∨ ∀ r, skips cfg r = true) ∧
        Along (step fl plat cfg) (fun s o => ¬ Ends s o) (start bbr now0) ops := by
  by_cases hall : ∀ r, skips cfg r
  · rw [always_iff_along_of_inv (I := Idle) ?_ (fun s o h _ => idle_step hall h o)
      (fun s o h hends => absurd (h.not_ends o) hends) ⟨rfl, rfl, rfl⟩ ops]
    · exact ⟨fun h => ⟨.inr hall, h⟩, fun h => h.2⟩
    · intro s h
      refine ⟨by rw [h.inflight_eq, h.executing_eq]; rfl, fun _ r now hskip => ?_⟩
      rw [hall r] at hskip
      cases hskip
  obtain ⟨r, hskip⟩ : ∃ r, skips cfg r = false := by simpa using hall
  by_cases hd : bbr.window / bbr.bucketCount = 0
  · constructor
    · intro h
      exact absurd h.head (not_accurate_of_zero hd rfl rfl hskip)
    · intro h
      exact absurd (h.1.resolve_right hall) (not_not.2 hd)
  · have hinv : Inv (start bbr now0) :=
      ⟨⟨Nat.pos_of_ne_zero hd, by simpa [start, Bbr.new] using bbr.bucketCount_pos⟩, rfl, rfl, rfl⟩
    rw [always_iff_along_of_inv (I := Inv) (fun s h => accurate_of_inv h) (fun s o h hno => inv_step h o hno)
      (fun s o h hends => not_accurate_of_ends h (not_not.1 hends)) hinv ops]
    exact ⟨fun h => ⟨.inl hd, h⟩, fun h => h.2⟩

def allowMode : Options := ⟨false, defaultErrorHandler, none⟩

def servedOnce : List Op := [.arrive 1 0, .finish 1, .arrive 2 1000000000]

/-- the middleware after these steps, with the default options of the limiter -/
def servedSys : Sys := run (step Go.unrounded Go.amd64 allowMode) (start (defaultConfig Go.unrounded) 0) servedOnce

/-- **An idle limiter rejects.** With the default options nothing executes and inflight is one: the second request is
answered with 429. -/
theorem idle_limiter_rejects :
    servedSys.executing = [] ∧ servedSys.limiter.inflight = 1 ∧
      servedSys.answered = [(2, ⟨[.header 429 false, .body], false⟩)] ∧
      ¬ Accurate Go.unrounded Go.amd64 allowMode servedSys := by
  have hidle : servedSys.executing = [] := by decide +kernel
  have hcount : servedSys.limiter.inflight = 1 := by decide +kernel
  refine ⟨hidle, hcount, by decide +kernel, fun hacc => ?_⟩
  have heq := hacc.1
  rw [hidle, hcount] at heq
  cases heq

end LuluExt.Http.Limiting
