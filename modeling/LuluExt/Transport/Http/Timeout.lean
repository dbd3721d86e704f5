/-
The timeout middleware of HTTP, in every interleaving of the handler with its deadline.

The handler runs in a goroutine of its own and on the server's writer, and the middleware waits for its end or for the
deadline, whichever `select` takes. If it takes the deadline it writes the timeout response to the same writer and
returns, and the handler goes on. So the client may get a mixture of both responses, the handler may use the writer of a
request that is over, and a panic in the goroutine ends the process: nothing that the caller defers can see it.
-/
import LuluExt.Lib.Run
import LuluExt.Transport.Http.Writer

namespace LuluExt.Http

open LuluExt.Run

variable {ρ : Type}

structure TimeoutOptions (ρ : Type) where
  status : ℤ
  message : Bytes
  skipFunc : Option (ρ → Bool)
  timeoutFunc : Option (ρ → ℤ)

def defaultTimeoutOptions : TimeoutOptions ρ := ⟨503, Go.utf8 "Service Unavailable", none, none⟩

def timeoutOf (cfg : TimeoutOptions ρ) (defaultTimeout : ℤ) (r : ρ) : ℤ :=
  match cfg.timeoutFunc with
  | some timeoutFunc => if 0 < timeoutFunc r then timeoutFunc r else defaultTimeout
  | none => defaultTimeout

def bypassesTimeout (cfg : TimeoutOptions ρ) (defaultTimeout : ℤ) (r : ρ) : Bool :=
  (cfg.skipFunc.any fun skipFunc => skipFunc r) || timeoutOf cfg defaultTimeout r ≤ 0

/-- what a handler does: its calls, and whether it panics after them -/
structure Handler where
  calls : List Call
  panics : Bool

/-- the complete response of the handler; `none` when it panics -/
def Handler.response (a : Handler) (isHead : Bool) (h : Header) : Option Response :=
  if a.panics then none else respond isHead h a.calls

def TimeoutOptions.response (cfg : TimeoutOptions ρ) (isHead : Bool) (h : Header) : Option Response :=
  respond isHead h (httpError cfg.message cfg.status)

/-! ## The two goroutines -/

/-- the goroutine of the handler: what it still does, or `done` is closed -/
inductive Goroutine where
  | running (rest : List Call)
  | done

/-- the middleware: in `select`, in `http.Error`, or back in its caller, to which `none` is a panic -/
inductive Phase where
  | waiting
  | erroring (rest : List Call)
  | returned (response : Option Response)

/-- `made` are the calls of the handler on the writer, `late` those that it makes after the middleware has returned -/
structure Serving where
  handler : Goroutine
  phase : Phase
  expired : Bool
  writer : ResponseWriter
  crashed : Bool
  made : List Call
  late : List Call

/-- `expire` is the end of the context, by its deadline or by its parent -/
inductive TimeoutOp where
  | call
  | leave
  | expire
  | selectDone
  | selectTimeout
  | error

def Serving.handlerCall (s : Serving) (c : Call) (rest : List Call) : Serving :=
  match s.phase with
  | .returned _ => { s with handler := .running rest, late := s.late ++ [c] }
  | _ =>
    match s.writer.call c with
    | some w => { s with handler := .running rest, writer := w, made := s.made ++ [c] }
    | none => { s with crashed := true }

def Serving.errorCall (s : Serving) (c : Call) (rest : List Call) : Serving :=
  match s.writer.call c with
  | some w => { s with phase := .erroring rest, writer := w }
  | none => { s with phase := .returned none }

/-- a step of one of the goroutines; one that is not possible changes nothing -/
def timeoutStep (cfg : TimeoutOptions ρ) (a : Handler) (s : Serving) (op : TimeoutOp) : Serving :=
  if s.crashed then s
  else match op, s.handler, s.phase with
    | .call, .running (c :: rest), _ => s.handlerCall c rest
    | .leave, .running [], _ => if a.panics then { s with crashed := true } else { s with handler := .done }
    | .expire, _, _ => { s with expired := true }
    | .selectDone, .done, .waiting => { s with phase := .returned (some s.writer.finish) }
    | .selectTimeout, _, .waiting =>
      if s.expired then { s with phase := .erroring (httpError cfg.message cfg.status) } else s
    | .error, _, .erroring (c :: rest) => s.errorCall c rest
    | .error, _, .erroring [] => { s with phase := .returned (some s.writer.finish) }
    | _, _, _ => s

/-- `Middleware`, when the goroutine has been started, or when the handler was called by the middleware itself -/
def timeoutMiddleware (cfg : TimeoutOptions ρ) (defaultTimeout : ℤ) (r : ρ) (isHead : Bool) (h : Header)
    (a : Handler) : Serving :=
  if bypassesTimeout cfg defaultTimeout r then
    ⟨.done, .returned (a.response isHead h), false, ((newWriter isHead h).calls a.calls).getD (newWriter isHead h),
      false, a.calls, []⟩
  else ⟨.running a.calls, .waiting, false, newWriter isHead h, false, [], []⟩

/-! ## Atomicity -/

structure Atomic (cfg : TimeoutOptions ρ) (isHead : Bool) (h : Header) (a : Handler) (s : Serving) : Prop where
  response : ∀ r, s.phase = .returned r → r = a.response isHead h ∨ r = cfg.response isHead h
  late : s.late = []
  /-- a panic does not end the process -/
  propagated : s.crashed = false

/-- The deadline is taken only before the handler's first call, no call follows it, and none panics. -/
def Orderly (a : Handler) (s : Serving) : TimeoutOp → Prop
  | .call => ∀ c rest, s.handler = .running (c :: rest) → s.phase = .waiting ∧ s.writer.call c ≠ none
  | .leave => s.handler = .running [] → a.panics = false
  | .selectTimeout => s.phase = .waiting → s.expired = true → s.made = []
  | _ => True

structure Kept (cfg : TimeoutOptions ρ) (isHead : Bool) (h : Header) (a : Handler) (s : Serving) : Prop where
  waiting : s.phase = .waiting → (newWriter isHead h).calls s.made = some s.writer ∧
    (s.handler = .done → s.made = a.calls ∧ a.panics = false)
  erroring : ∀ rest, s.phase = .erroring rest →
    ∃ ds, ds ++ rest = httpError cfg.message cfg.status ∧ (newWriter isHead h).calls ds = some s.writer
  returned : ∀ r, s.phase = .returned r → r = a.response isHead h ∨ r = cfg.response isHead h
  calls : ∀ rest, s.handler = .running rest → s.made ++ rest = a.calls
  late : s.late = []
  crashed : s.crashed = false

variable {rest : List Call}

section Invariant

variable {cfg : TimeoutOptions ρ} {isHead : Bool} {h : Header} {a : Handler} {s : Serving}

theorem Kept.atomic (k : Kept cfg isHead h a s) : Atomic cfg isHead h a s := ⟨k.returned, k.late, k.crashed⟩

theorem Kept.returns (k : Kept cfg isHead h a s) {r : Option Response}
    (hr : r = a.response isHead h ∨ r = cfg.response isHead h) : Kept cfg isHead h a { s with phase := .returned r } :=
  { k with waiting := nofun, erroring := nofun, returned := fun _ heq => Phase.returned.inj heq ▸ hr }

theorem kept_handlerCall (k : Kept cfg isHead h a s) {c : Call}
    (hrunning : s.handler = .running (c :: rest)) (hwaiting : s.phase = .waiting) (hcall : s.writer.call c ≠ none) :
    Kept cfg isHead h a (s.handlerCall c rest) := by
  obtain ⟨w, hw⟩ := Option.ne_none_iff_exists'.1 hcall
  have hcalls := k.calls (c :: rest) hrunning
  simp only [Serving.handlerCall, hwaiting, hw]
  refine { k with waiting := fun _ => ⟨?_, nofun⟩, erroring := nofun, returned := nofun, calls := ?_ }
  · rw [calls_concat, (k.waiting hwaiting).1]
    exact hw
  · rintro _ ⟨⟩
    rw [← hcalls]
    simp

theorem kept_errorCall (k : Kept cfg isHead h a s) {c : Call}
    (herroring : s.phase = .erroring (c :: rest)) : Kept cfg isHead h a (s.errorCall c rest) := by
  obtain ⟨ds, hds, hwriter⟩ := k.erroring _ herroring
  have hnext : (newWriter isHead h).calls (ds ++ [c]) = s.writer.call c := by
    rw [calls_concat, hwriter]
    rfl
  unfold Serving.errorCall
  cases hw : s.writer.call c with
  | some w =>
    refine { k with waiting := nofun, erroring := ?_, returned := nofun }
    rintro _ ⟨⟩
    exact ⟨ds ++ [c], by simp [← hds], hnext.trans hw⟩
  | none =>
    -- http.Error panics: what it would have written is no response either
    refine k.returns (.inr ?_)
    have hsplit : httpError cfg.message cfg.status = (ds ++ [c]) ++ rest := by simp [← hds]
    rw [TimeoutOptions.response, respond, hsplit, calls_append, hnext, hw]
    rfl

theorem kept_selectDone (k : Kept cfg isHead h a s) (hdone : s.handler = .done) (hwaiting : s.phase = .waiting) :
    Kept cfg isHead h a { s with phase := .returned (some s.writer.finish) } := by
  obtain ⟨hwriter, hend⟩ := k.waiting hwaiting
  obtain ⟨hmade, hpanics⟩ := hend hdone
  refine k.returns (.inl ?_)
  simp [Handler.response, hpanics, respond, ← hmade, hwriter]

theorem kept_errorDone (k : Kept cfg isHead h a s) (herroring : s.phase = .erroring []) :
    Kept cfg isHead h a { s with phase := .returned (some s.writer.finish) } := by
  obtain ⟨ds, hds, hwriter⟩ := k.erroring _ herroring
  refine k.returns (.inr ?_)
  simp [TimeoutOptions.response, respond, ← hds, hwriter]

theorem kept_selectTimeout (k : Kept cfg isHead h a s) (hwaiting : s.phase = .waiting) (hmade : s.made = []) :
    Kept cfg isHead h a { s with phase := .erroring (httpError cfg.message cfg.status) } := by
  have hwriter := (k.waiting hwaiting).1
  rw [hmade] at hwriter
  refine { k with waiting := nofun, erroring := ?_, returned := nofun }
  rintro _ ⟨⟩
  exact ⟨[], rfl, hwriter⟩

theorem kept_leave (k : Kept cfg isHead h a s) (hrunning : s.handler = .running []) (hpanics : a.panics = false) :
    Kept cfg isHead h a { s with handler := .done } := by
  have hmade : s.made = a.calls := by simpa using k.calls [] hrunning
  exact { k with waiting := fun hwaiting => ⟨(k.waiting hwaiting).1, fun _ => ⟨hmade, hpanics⟩⟩, calls := nofun }

theorem kept_step (k : Kept cfg isHead h a s) {op : TimeoutOp} (ho : Orderly a s op) :
    Kept cfg isHead h a (timeoutStep cfg a s op) := by
  unfold timeoutStep
  rw [if_neg (by simp [k.crashed])]
  split
  case h_1 c rest hrunning =>
    obtain ⟨hwaiting, hcall⟩ := ho c rest hrunning
    exact kept_handlerCall k hrunning hwaiting hcall
  case h_2 hrunning =>
    have hpanics : a.panics = false := ho hrunning
    rw [if_neg (by simp [hpanics])]
    exact kept_leave k hrunning hpanics
  case h_3 => exact { k with }
  case h_4 hdone hwaiting => exact kept_selectDone k hdone hwaiting
  case h_5 hwaiting =>
    split
    case isTrue hexpired => exact kept_selectTimeout k hwaiting (ho hwaiting hexpired)
    case isFalse => exact k
  case h_6 c rest herroring => exact kept_errorCall k herroring
  case h_7 herroring => exact kept_errorDone k herroring
  case h_8 => exact k

theorem kept_timeoutMiddleware (cfg : TimeoutOptions ρ) (defaultTimeout : ℤ) (r : ρ) (isHead : Bool) (h : Header)
    (a : Handler) : Kept cfg isHead h a (timeoutMiddleware cfg defaultTimeout r isHead h a) := by
  unfold timeoutMiddleware
  split
  · refine ⟨nofun, nofun, ?_, nofun, rfl, rfl⟩
    rintro _ ⟨⟩
    exact .inl rfl
  · refine ⟨fun _ => ⟨rfl, nofun⟩, nofun, nofun, ?_, rfl, rfl⟩
    rintro _ ⟨⟩
    rfl

end Invariant

variable {cfg : TimeoutOptions ρ} {s : Serving}

theorem orderly_of_silent {isHead : Bool} {h : Header}
    (k : Kept cfg isHead h ⟨[], false⟩ s) (op : TimeoutOp) : Orderly ⟨[], false⟩ s op := by
  cases op with
  | call =>
    intro c rest hrunning
    have hcalls := k.calls (c :: rest) hrunning
    simp at hcalls
  | leave => exact fun _ => rfl
  | selectTimeout =>
    intro hwaiting _
    cases hh : s.handler with
    | running rest => exact (List.append_eq_nil_iff.1 (k.calls rest hh)).1
    | done => exact ((k.waiting hwaiting).2 hh).1
  | expire | selectDone | error => trivial

/-- a handler that the middleware has called itself, when it is back -/
def Over (s : Serving) : Prop := s.handler = .done ∧ ∃ r, s.phase = .returned r

theorem Over.orderly (hover : Over s) (a : Handler) (op : TimeoutOp) : Orderly a s op := by
  obtain ⟨hdone, r, hreturned⟩ := hover
  cases op <;> simp [Orderly, hdone, hreturned]

theorem Over.step (hover : Over s) (cfg : TimeoutOptions ρ) (a : Handler) (op : TimeoutOp) :
    Over (timeoutStep cfg a s op) := by
  obtain ⟨hdone, r, hreturned⟩ := hover
  unfold timeoutStep
  split
  · exact ⟨hdone, r, hreturned⟩
  · cases op <;> simp [Over, hdone, hreturned]

/-! ## What the others can do -/

theorem error_of_returned {a : Handler} {r : Option Response} (hreturned : s.phase = .returned r) :
    timeoutStep cfg a s .error = s := by
  simp [timeoutStep, hreturned]

theorem errors_of_returned {a : Handler} {r : Option Response} (hreturned : s.phase = .returned r) (n : ℕ) :
    run (timeoutStep cfg a) s (List.replicate n .error) = s := by
  induction n with
  | zero => rfl
  | succ n ih => rw [List.replicate_succ, run_cons, error_of_returned hreturned, ih]

theorem errors_of_erroring (cfg : TimeoutOptions ρ) (a : Handler)
    (hcrashed : s.crashed = false) (herroring : s.phase = .erroring rest) :
    ∃ r w, run (timeoutStep cfg a) s (List.replicate (rest.length + 1) .error) =
      { s with phase := .returned r, writer := w } := by
  induction rest generalizing s with
  | nil => exact ⟨some s.writer.finish, s.writer, by simp [timeoutStep, hcrashed, herroring]⟩
  | cons c rest ih =>
    have hstep : timeoutStep cfg a s .error = s.errorCall c rest := by simp [timeoutStep, hcrashed, herroring]
    rw [List.replicate_succ, run_cons, hstep]
    unfold Serving.errorCall
    cases s.writer.call c with
    | some w => exact ih (s := { s with phase := .erroring rest, writer := w }) hcrashed rfl
    | none => exact ⟨none, s.writer, errors_of_returned (s := { s with phase := .returned none }) rfl _⟩

/-- the deadline, the whole timeout response, and then a call of the handler -/
def overtaken (cfg : TimeoutOptions ρ) : List TimeoutOp :=
  [.expire, .selectTimeout] ++ List.replicate ((httpError cfg.message cfg.status).length + 1) .error ++ [.call]

def takenFirst (cfg : TimeoutOptions ρ) (isHead : Bool) (h : Header) (calls : List Call) : Serving :=
  ⟨.running calls, .erroring (httpError cfg.message cfg.status), true, newWriter isHead h, false, [], []⟩

theorem overtaken_late {defaultTimeout : ℤ} {r : ρ}
    (hr : bypassesTimeout cfg defaultTimeout r = false) (isHead : Bool) (h : Header) (c : Call) (rest : List Call)
    (panics : Bool) :
    (run (timeoutStep cfg ⟨c :: rest, panics⟩)
      (timeoutMiddleware cfg defaultTimeout r isHead h ⟨c :: rest, panics⟩) (overtaken cfg)).late = [c] := by
  have htaken : run (timeoutStep cfg ⟨c :: rest, panics⟩)
      (timeoutMiddleware cfg defaultTimeout r isHead h ⟨c :: rest, panics⟩) [.expire, .selectTimeout] =
      takenFirst cfg isHead h (c :: rest) := by
    simp [timeoutMiddleware, hr, timeoutStep, takenFirst]
  obtain ⟨response, w, hreturned⟩ := errors_of_erroring cfg ⟨c :: rest, panics⟩
    (s := takenFirst cfg isHead h (c :: rest)) rfl rfl
  calc (run (timeoutStep cfg ⟨c :: rest, panics⟩)
        (timeoutMiddleware cfg defaultTimeout r isHead h ⟨c :: rest, panics⟩) (overtaken cfg)).late
      = (run (timeoutStep cfg ⟨c :: rest, panics⟩)
          { takenFirst cfg isHead h (c :: rest) with phase := .returned response, writer := w } [.call]).late := by
        rw [overtaken, run_append, run_append, htaken, hreturned]
    _ = [c] := rfl

theorem silent_of_atomic {defaultTimeout : ℤ} {r : ρ} {isHead : Bool} {h : Header}
    {a : Handler} (hr : bypassesTimeout cfg defaultTimeout r = false)
    (hatomic : ∀ ops, Always (timeoutStep cfg a) (Atomic cfg isHead h a)
      (timeoutMiddleware cfg defaultTimeout r isHead h a) ops) : a = ⟨[], false⟩ := by
  obtain ⟨calls, panics⟩ := a
  cases calls with
  | cons c rest =>
    have hlate := (hatomic (overtaken cfg)).last.late
    rw [overtaken_late hr] at hlate
    cases hlate
  | nil =>
    cases panics with
    | false => rfl
    | true =>
      have hcrashed := (hatomic [.leave]).last.propagated
      simp [timeoutMiddleware, hr, timeoutStep] at hcrashed

/-- **Atomicity.** No interleaving goes wrong if the request bypasses the timeout, or if the handler makes no call on
the writer and does not panic; for every other handler one does. And the orderly interleavings go well, in which the
handler is left to itself or has not begun to respond. -/
theorem atomic_iff (cfg : TimeoutOptions ρ) (defaultTimeout : ℤ) (r : ρ) (isHead : Bool) (h : Header) (a : Handler) :
    ((∀ ops, Always (timeoutStep cfg a) (Atomic cfg isHead h a)
      (timeoutMiddleware cfg defaultTimeout r isHead h a) ops) ↔
        bypassesTimeout cfg defaultTimeout r = true ∨ a = ⟨[], false⟩) ∧
    ∀ ops, Along (timeoutStep cfg a) (Orderly a) (timeoutMiddleware cfg defaultTimeout r isHead h a) ops →
      Always (timeoutStep cfg a) (Atomic cfg isHead h a) (timeoutMiddleware cfg defaultTimeout r isHead h a) ops := by
  have hstart := kept_timeoutMiddleware cfg defaultTimeout r isHead h a
  refine ⟨⟨?_, ?_⟩, ?_⟩
  · intro hatomic
    cases hr : bypassesTimeout cfg defaultTimeout r with
    | true => exact Or.inl rfl
    | false => exact Or.inr (silent_of_atomic hr hatomic)
  · rintro (hr | rfl) ops
    · have hover : Over (timeoutMiddleware cfg defaultTimeout r isHead h a) := by
        rw [timeoutMiddleware, if_pos hr]
        exact ⟨rfl, a.response isHead h, rfl⟩
      apply always_of_along (I := fun s => Kept cfg isHead h a s ∧ Over s) (fun _ hs => hs.1.atomic) ?_ ⟨hstart, hover⟩
        (along_true ops)
      rintro s op ⟨k, hs⟩ _
      exact ⟨kept_step k (hs.orderly a op), hs.step cfg a op⟩
    · apply always_of_along (fun _ k => k.atomic) ?_ hstart (along_true ops)
      intro s op k _
      exact kept_step k (orderly_of_silent k op)
  · intro ops horderly
    apply always_of_along (I := Kept cfg isHead h a) (fun _ k => k.atomic) ?_ hstart horderly
    intro s op k ho
    exact kept_step k ho

def plainTimeout : TimeoutOptions Unit := defaultTimeoutOptions

def twoWrites : Handler := ⟨[.write [97], .write [98]], false⟩

/-- both writes, the end of the handler, and a deadline that comes too late -/
theorem twoWrites_atomic :
    Always (timeoutStep plainTimeout twoWrites) (Atomic plainTimeout false .empty twoWrites)
      (timeoutMiddleware plainTimeout 1 () false .empty twoWrites)
      [.call, .call, .leave, .selectDone, .expire, .selectTimeout] := by
  refine (atomic_iff plainTimeout 1 () false .empty twoWrites).2 _ ⟨?_, ?_, ?_, trivial, trivial, ?_, trivial⟩
  · rintro c rest ⟨⟩
    exact ⟨rfl, by simp [ResponseWriter.call]⟩
  · rintro c rest ⟨⟩
    exact ⟨rfl, by simp [ResponseWriter.call]⟩
  · exact fun _ => rfl
  · rintro ⟨⟩

def Serving.answer (s : Serving) : Option (ℤ × Bytes) :=
  match s.phase with
  | .returned (some r) => some (r.status, r.body)
  | _ => none

def serveTimed (a : Handler) (ops : List TimeoutOp) : Serving :=
  run (timeoutStep plainTimeout a) (timeoutMiddleware plainTimeout 1 () false .empty a) ops

def timedOut : List TimeoutOp := [.expire, .selectTimeout, .error, .error, .error, .error, .error, .error]

/-- **Torn responses.** When the deadline comes between the writes, or `select` takes it although the handler is done,
the client gets both responses in one; a deadline that comes first leaves both writes to a request that is over; and a
panic ends the process. -/
theorem torn_responses :
    (serveTimed twoWrites [.call, .call, .leave, .selectDone]).answer = some (200, Go.utf8 "ab") ∧
    (serveTimed twoWrites timedOut).answer = some (503, Go.utf8 "Service Unavailable\n") ∧
    (serveTimed twoWrites (.call :: timedOut)).answer = some (200, Go.utf8 "aService Unavailable\n") ∧
    (serveTimed twoWrites ([.call, .call, .leave] ++ timedOut)).answer = some (200, Go.utf8 "abService Unavailable\n") ∧
    (serveTimed twoWrites (timedOut ++ [.call, .call])).late.length = 2 ∧
    (serveTimed ⟨[], true⟩ [.leave]).crashed = true ∧
    (serveTimed ⟨[], true⟩ (timedOut ++ [.leave])).crashed = true := by
  decide

end LuluExt.Http
