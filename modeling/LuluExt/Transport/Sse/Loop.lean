/-
Who waits for whom: run loops, requests, their watchers, and Notify, over channels that can be full.

A request finds its stream and offers itself on the register channel; the loop takes it when it is idle. Then the
handler reads its channel of 64 events while a watcher waits for the end of the request's context and offers the
subscriber on the deregister channel. The loop, taking an event or replaying its log, sends to one subscriber after
another and waits for each that is full. A stream is removed by closing its quit channel. Notify holds the manager's
mutex while it offers its event to one stream after another, and RemoveStream, Clean and new requests need it.

Two things go wrong. A handler that reads an event without data and comment returns although its subscriber is still
registered: once its channel is full the loop waits for it, and takes neither the deregistration that would free it nor
quit. And a loop that takes quit looks at neither register nor deregister again.
-/
import LuluExt.Transport.Sse.Server

namespace LuluExt.Sse.Loop

open Run

/-- `ServeHTTP`: in addSubscriber, in the loop over the channel, or through with it -/
inductive Handler
  | adding
  | reading
  | returned
deriving DecidableEq, Repr

/-- the goroutine of a request: not started, waiting for the context, in close, or through with it -/
inductive Watcher
  | none
  | watching
  | closing
  | done
deriving DecidableEq, Repr

structure Request where
  stream : ℕ
  eventId : Bytes
  handler : Handler
  watcher : Watcher
  /-- the context is done -/
  gone : Bool
  connection : List ℕ
  closed : Bool
deriving DecidableEq, Repr

/-- the sends a run loop has still to make, each to a request; none when it is in its select -/
inductive RunLoop
  | sending (todo : List (ℕ × ℕ))
  | exited
deriving DecidableEq, Repr

def RunLoop.idle : RunLoop := .sending []

@[simp] def RunLoop.todo : RunLoop → List (ℕ × ℕ)
  | .sending todo => todo
  | .exited => []

structure Line where
  queue : List ℕ
  eventLog : List ℕ
  subscribers : List ℕ
  loop : RunLoop
  quit : Bool
  /-- in the manager's map -/
  listed : Bool
deriving DecidableEq, Repr

/-- `notifying`: the mutex is held by a Notify, with the streams it has still to serve and its event -/
structure State where
  memory : Memory
  streams : ℕ → Line
  created : ℕ
  requests : ℕ → Request
  arrived : ℕ
  notifying : Option (List ℕ × ℕ)

def capacity : ℕ := 64

inductive Op
  /-- `CreateStream`; of two at once for one ID, one gets a stream that is not in the map -/
  | create (listed : Bool)
  /-- `ServeHTTP` has found its stream and is in addSubscriber -/
  | arrive (i : ℕ) (eventId : Bytes)
  | disconnect (r : ℕ)
  | publish (i ref now : ℕ)
  | beginNotify (order : List ℕ) (ref : ℕ)
  /-- the stream at hand takes the event, or it has quit and is given up -/
  | notifyNext (now : ℕ) (giveUp : Bool)
  | endNotify
  | remove (i : ℕ)
  -- the run loop: its four cases, and the sends of the first and the third
  | register (i r : ℕ)
  | deregister (i r : ℕ)
  | take (i now : ℕ)
  | exit (i : ℕ)
  | send (i : ℕ)
  -- the request
  | read (r : ℕ)
  | finish (r : ℕ)
  | beginClose (r : ℕ)

section Step

variable (g : Generator) (cfg : Config)

@[simp] def State.setLine (s : State) (i : ℕ) (l : Line) : State := { s with streams := Function.update s.streams i l }

@[simp] def State.setRequest (s : State) (r : ℕ) (q : Request) : State :=
  { s with requests := Function.update s.requests r q }

/-- the loop has an event in hand: it is logged and will be sent to every subscriber -/
def State.beginEvent (s : State) (i ref now : ℕ) : State :=
  let l := s.streams i
  let logged := if cfg.autoReplay then EventLog.add g s.memory l.eventLog ref now else (s.memory, l.eventLog)
  { s with memory := logged.1 }.setLine i
    { l with eventLog := logged.2, loop := .sending (l.subscribers.map fun r => (r, ref)) }

/-- a send on the event channel: into the buffer, or to a loop that is waiting; none if it has to wait -/
def State.offer (s : State) (i ref now : ℕ) : Option State :=
  let l := s.streams i
  if l.queue.length < cfg.bufferSize then some (s.setLine i { l with queue := l.queue ++ [ref] })
  else if l.loop = .idle ∧ l.queue = [] then some (s.beginEvent g cfg i ref now)
  else none

/-- `case subscriber := <-stream.register`: the handler goes on, and the replay is still to be sent -/
def State.onRegister (s : State) (i r : ℕ) : State :=
  let l := s.streams i
  let q := s.requests r
  let todo := if cfg.autoReplay then (EventLog.replay s.memory l.eventLog q.eventId).map fun ref => (r, ref) else []
  (s.setRequest r { q with handler := .reading, watcher := .watching }).setLine i
    { l with subscribers := l.subscribers ++ [r], loop := .sending todo }

/-- `case subscriber := <-stream.deregister` -/
def State.onDeregister (s : State) (i r : ℕ) : State :=
  let l := s.streams i
  let q := s.requests r
  (s.setLine i { l with subscribers := l.subscribers.erase r }).setRequest r
    { q with watcher := .done, closed := q.closed || decide (r ∈ l.subscribers) }

def State.onQuit (s : State) (i : ℕ) : State :=
  let l := s.streams i
  { s with requests := fun r =>
      if r ∈ l.subscribers then { s.requests r with closed := true } else s.requests r }.setLine i
    { l with subscribers := [], loop := .exited }

/-- one event of a handler's channel; an empty one ends the handler, and with it the context -/
def State.onRead (s : State) (r ref : ℕ) (rest : List ℕ) : State :=
  let q := s.requests r
  if (s.memory.event ref).ends then s.setRequest r { q with handler := .returned, gone := true, connection := rest }
  else s.setRequest r { q with connection := rest }

def step (s : State) : Op → State
  | .create listed =>
    { s.setLine s.created ⟨[], [], [], .idle, false, listed⟩ with created := s.created + 1 }
  | .arrive i eventId =>
    if s.notifying = none ∧ i < s.created ∧ (s.streams i).quit = false then
      { s.setRequest s.arrived ⟨i, eventId, .adding, .none, false, [], false⟩ with arrived := s.arrived + 1 }
    else s
  | .disconnect r => if r < s.arrived then s.setRequest r { s.requests r with gone := true } else s
  | .publish i ref now => (s.offer g cfg i ref now).getD s
  | .beginNotify order ref =>
    if s.notifying = none ∧ order.Nodup ∧ ∀ i < s.created, i ∈ order ↔ (s.streams i).listed = true then
      { s with notifying := some (order, ref) }
    else s
  | .notifyNext now giveUp =>
    match s.notifying with
    | some (i :: rest, ref) =>
      if giveUp ∧ (s.streams i).quit = true then { s with notifying := some (rest, ref) }
      else ((s.offer g cfg i ref now).map fun s' => { s' with notifying := some (rest, ref) }).getD s
    | _ => s
  | .endNotify =>
    match s.notifying with
    | some ([], _) => { s with notifying := none }
    | _ => s
  | .remove i =>
    if s.notifying = none ∧ (s.streams i).listed = true then
      s.setLine i { s.streams i with quit := true, listed := false }
    else s
  | .register i r =>
    if (s.streams i).loop = .idle ∧ r < s.arrived ∧ (s.requests r).stream = i ∧ (s.requests r).handler = .adding then
      s.onRegister cfg i r
    else s
  | .deregister i r =>
    if (s.streams i).loop = .idle ∧ r < s.arrived ∧ (s.requests r).stream = i ∧ (s.requests r).watcher = .closing then
      s.onDeregister i r
    else s
  | .take i now =>
    match (s.streams i).queue with
    | ref :: rest =>
      if (s.streams i).loop = .idle then
        (s.setLine i { s.streams i with queue := rest }).beginEvent g cfg i ref now
      else s
    | [] => s
  | .exit i => if (s.streams i).loop = .idle ∧ (s.streams i).quit = true then s.onQuit i else s
  | .send i =>
    match (s.streams i).loop with
    | .sending ((r, ref) :: todo) =>
      if (s.requests r).connection.length < capacity then
        (s.setRequest r { s.requests r with connection := (s.requests r).connection ++ [ref] }).setLine i
          { s.streams i with loop := .sending todo }
      else s
    | _ => s
  | .read r =>
    match (s.requests r).connection with
    | ref :: rest => if r < s.arrived ∧ (s.requests r).handler = .reading then s.onRead r ref rest else s
    | [] => s
  | .finish r =>
    if r < s.arrived ∧ (s.requests r).handler = .reading ∧ (s.requests r).connection = [] ∧
        (s.requests r).closed = true then
      s.setRequest r { s.requests r with handler := .returned, gone := true }
    else s
  | .beginClose r =>
    if r < s.arrived ∧ (s.requests r).watcher = .watching ∧ (s.requests r).gone = true then
      s.setRequest r { s.requests r with watcher := .closing }
    else s

end Step

/-- no streams and no requests yet; the events that will be published are in memory -/
def start (m : Memory) : State where
  memory := m
  streams _ := ⟨[], [], [], .exited, true, false⟩
  created := 0
  requests _ := ⟨0, [], .adding, .none, false, [], false⟩
  arrived := 0
  notifying := none

/-! ## Wedged -/

/-- the loop waits to send to a subscriber whose handler has returned -/
def Stuck (s : State) (i : ℕ) : Prop :=
  ∃ r ref todo, (s.streams i).loop = .sending ((r, ref) :: todo) ∧ capacity ≤ (s.requests r).connection.length ∧
    (s.requests r).handler = .returned

/-- a request waits in addSubscriber or in close for a loop that has exited -/
def Stranded (s : State) (r : ℕ) : Prop :=
  r < s.arrived ∧ (s.streams (s.requests r).stream).loop = .exited ∧
    ((s.requests r).handler = .adding ∨ (s.requests r).watcher = .closing)

def Wedged (s : State) : Prop := (∃ i, Stuck s i) ∨ ∃ r, Stranded s r

/-- a handler does not read an event without data and comment while it is registered, and a loop does not take quit
while a request of its stream is not closed -/
def Orderly (s : State) : Op → Prop
  | .read r => r < s.arrived ∧ (s.requests r).handler = .reading →
      ∀ ref ∈ (s.requests r).connection.head?, (s.memory.event ref).ends = true → (s.requests r).watcher = .done
  | .exit i => (s.streams i).loop = .idle ∧ (s.streams i).quit = true →
      ∀ r < s.arrived, (s.requests r).stream = i → (s.requests r).watcher = .done
  | _ => True

instance (s : State) : (op : Op) → Decidable (Orderly s op)
  | .read _ | .exit _ => inferInstanceAs (Decidable (_ ∧ _ → _))
  | .create _ | .arrive _ _ | .disconnect _ | .publish _ _ _ | .beginNotify _ _ | .notifyNext _ _ | .endNotify
  | .remove _ | .register _ _ | .deregister _ _ | .take _ _ | .send _ | .finish _ | .beginClose _ => .isTrue trivial

/-! ## The invariant -/

/-- a request that is through with its handler, whose channel is closed or whose loop has exited, is closed -/
structure Request.Ok (q : Request) (loop : RunLoop) : Prop where
  exited : loop = .exited → q.watcher = .done
  returned : q.handler = .returned → q.watcher = .done
  closed : q.closed = true → q.watcher = .done
  adding : q.handler = .adding → q.watcher = .none

structure Request.Registered (q : Request) (i : ℕ) : Prop where
  stream : q.stream = i
  handler : q.handler ≠ .adding
  watcher : q.watcher ≠ .done

structure Line.Ok (l : Line) : Prop where
  exited : l.loop = .exited → l.quit = true
  nodup : l.subscribers.Nodup
  todo : ∀ x ∈ l.loop.todo, x.1 ∈ l.subscribers

structure Sound (s : State) : Prop where
  lines : ∀ i, (s.streams i).Ok
  requests : ∀ r < s.arrived, (s.requests r).Ok (s.streams (s.requests r).stream).loop
  subscribers : ∀ i, ∀ r ∈ (s.streams i).subscribers, r < s.arrived ∧ (s.requests r).Registered i

theorem start_sound (m : Memory) : Sound (start m) where
  lines _ := ⟨fun _ => rfl, List.nodup_nil, by simp [start]⟩
  requests := by simp [start]
  subscribers := by simp [start]

variable {s : State}

/-- a loop does not send to a handler that has returned, and nobody waits for a loop that has exited -/
theorem not_wedged (h : Sound s) : ¬ Wedged s := by
  rintro (⟨i, r, ref, todo, hloop, -, hreturned⟩ | ⟨r, hr, hexited, hwaits⟩)
  · have hmem : r ∈ (s.streams i).subscribers := (h.lines i).todo (r, ref) (by simp [hloop])
    obtain ⟨hr, hregistered⟩ := h.subscribers i r hmem
    exact hregistered.watcher ((h.requests r hr).returned hreturned)
  · have hdone := (h.requests r hr).exited hexited
    rcases hwaits with hadding | hclosing
    · rw [(h.requests r hr).adding hadding] at hdone
      cases hdone
    · rw [hclosing] at hdone
      cases hdone

variable {r : ℕ}

theorem sound_setRequest (h : Sound s) {q : Request} (hok : q.Ok (s.streams q.stream).loop)
    (hreg : ∀ i, r ∈ (s.streams i).subscribers → q.Registered i) : Sound (s.setRequest r q) where
  lines := h.lines
  requests := by
    intro r' hr'
    by_cases heq : r' = r
    · subst heq
      simpa using hok
    · simpa [heq] using h.requests r' hr'
  subscribers := by
    intro i r' hr'
    refine ⟨(h.subscribers i r' hr').1, ?_⟩
    by_cases heq : r' = r
    · subst heq
      simpa using hreg i hr'
    · simpa [heq] using (h.subscribers i r' hr').2

theorem sound_setRequest_same (h : Sound s) (hr : r < s.arrived) {q : Request}
    (hstream : q.stream = (s.requests r).stream) (hhandler : q.handler = (s.requests r).handler)
    (hwatcher : q.watcher = (s.requests r).watcher) (hclosed : q.closed = (s.requests r).closed) :
    Sound (s.setRequest r q) := by
  have hq := h.requests r hr
  refine sound_setRequest h ?_ ?_
  · rw [hstream]
    refine ⟨?_, ?_, ?_, ?_⟩
    · rw [hwatcher]
      exact hq.exited
    · rw [hhandler, hwatcher]
      exact hq.returned
    · rw [hclosed, hwatcher]
      exact hq.closed
    · rw [hhandler, hwatcher]
      exact hq.adding
  · intro i hm
    have hreg := (h.subscribers i r hm).2
    exact ⟨hstream.trans hreg.stream, hhandler ▸ hreg.handler, hwatcher ▸ hreg.watcher⟩

variable {i : ℕ}

theorem Sound.exited (h : Sound s) (hexited : (s.streams i).loop = .exited) :
    ∀ r < s.arrived, (s.requests r).stream = i → (s.requests r).watcher = .done := by
  rintro r hr rfl
  exact (h.requests r hr).exited hexited

theorem sound_setLine (h : Sound s) {l : Line} (hok : l.Ok)
    (hloop : l.loop = .exited → ∀ r < s.arrived, (s.requests r).stream = i → (s.requests r).watcher = .done)
    (hsubs : ∀ r ∈ l.subscribers, r < s.arrived ∧ (s.requests r).Registered i) : Sound (s.setLine i l) where
  lines := (Function.forall_update_iff s.streams fun _ l => l.Ok).2 ⟨hok, fun j _ => h.lines j⟩
  requests := by
    intro r hr
    have hq := h.requests r hr
    refine ⟨?_, hq.returned, hq.closed, hq.adding⟩
    intro hexited
    by_cases hj : (s.requests r).stream = i
    · exact hloop (by simpa [hj] using hexited) r hr hj
    · exact hq.exited (by simpa [hj] using hexited)
  subscribers := by
    intro j r hr
    by_cases hj : j = i
    · subst hj
      exact hsubs r (by simpa using hr)
    · exact h.subscribers j r (by simpa [hj] using hr)

theorem sound_with (h : Sound s) (m : Memory) (n : Option (List ℕ × ℕ)) :
    Sound { s with memory := m, notifying := n } :=
  ⟨h.lines, h.requests, h.subscribers⟩

theorem sound_beginEvent (h : Sound s) (g : Generator) (cfg : Config) (i ref now : ℕ) :
    Sound (s.beginEvent g cfg i ref now) := by
  refine sound_setLine (sound_with h _ _) ⟨by simp, (h.lines i).nodup, ?_⟩ (by simp) (h.subscribers i)
  simp

theorem sound_offer {s' : State} (h : Sound s) {g : Generator} {cfg : Config} {ref now : ℕ}
    (hoffer : s.offer g cfg i ref now = some s') : Sound s' := by
  simp only [State.offer] at hoffer
  split_ifs at hoffer
  · cases hoffer
    exact sound_setLine h ⟨(h.lines i).exited, (h.lines i).nodup, (h.lines i).todo⟩ h.exited (h.subscribers i)
  · cases hoffer
    exact sound_beginEvent h g cfg i ref now

theorem sound_onRegister (h : Sound s) (cfg : Config) (hr : r < s.arrived)
    (hidle : (s.streams i).loop = .idle) (hstream : (s.requests r).stream = i)
    (hadding : (s.requests r).handler = .adding) : Sound (s.onRegister cfg i r) := by
  have hq := h.requests r hr
  have hnew : r ∉ (s.streams i).subscribers := fun hm => (h.subscribers i r hm).2.handler hadding
  have hopen : (s.requests r).closed ≠ true := by
    intro hclosed
    have hdone := hq.closed hclosed
    rw [hq.adding hadding] at hdone
    cases hdone
  have hrunning : (s.streams (s.requests r).stream).loop ≠ .exited := by
    rw [hstream, hidle]
    simp [RunLoop.idle]
  have hset : Sound (s.setRequest r { s.requests r with handler := .reading, watcher := .watching }) := by
    refine sound_setRequest h ⟨fun hx => absurd hx hrunning, by simp, fun hc => absurd hc hopen, by simp⟩ ?_
    intro j hm
    exact absurd hadding (h.subscribers j r hm).2.handler
  refine sound_setLine hset ⟨by simp, ?_, ?_⟩ (by simp) ?_
  · refine List.nodup_append.2 ⟨(h.lines i).nodup, by simp, ?_⟩
    intro a ha b hb
    rw [List.mem_singleton.1 hb]
    rintro rfl
    exact hnew ha
  · intro x hx
    split_ifs at hx
    · obtain ⟨ref, -, rfl⟩ := List.mem_map.1 hx
      simp
    · simp at hx
  · intro r' hr'
    rcases List.mem_append.1 hr' with hm | hm
    · exact hset.subscribers i r' hm
    · rw [List.mem_singleton.1 hm]
      refine ⟨hr, ?_⟩
      simpa using (⟨hstream, by simp, by simp⟩ :
        { s.requests r with handler := .reading, watcher := .watching : Request }.Registered i)

theorem sound_onDeregister (h : Sound s) (hstream : (s.requests r).stream = i)
    (hidle : (s.streams i).loop = .idle) (hadding : (s.requests r).handler ≠ .adding) :
    Sound (s.onDeregister i r) := by
  have hline : Sound (s.setLine i { s.streams i with subscribers := (s.streams i).subscribers.erase r }) := by
    refine sound_setLine h ⟨(h.lines i).exited, (h.lines i).nodup.erase r, ?_⟩ h.exited ?_
    · simp [hidle, RunLoop.idle]
    · exact fun r' hm => h.subscribers i r' (List.mem_of_mem_erase hm)
  refine sound_setRequest hline ⟨fun _ => rfl, fun _ => rfl, fun _ => rfl, fun ha => absurd ha hadding⟩ ?_
  -- it is in no list any more
  intro j hm
  by_cases hj : j = i
  · subst hj
    simp only [State.setLine, Function.update_self] at hm
    exact absurd hm ((h.lines j).nodup.not_mem_erase)
  · simp only [State.setLine, Function.update_of_ne hj] at hm
    have hother := (h.subscribers j r hm).2.stream
    exact absurd (hother.symm.trans hstream) hj

theorem sound_onQuit (h : Sound s) (hquit : (s.streams i).quit)
    (hdone : ∀ r < s.arrived, (s.requests r).stream = i → (s.requests r).watcher = .done) : Sound (s.onQuit i) := by
  have hnone : (s.streams i).subscribers = [] := by
    refine List.eq_nil_iff_forall_not_mem.2 ?_
    intro r hm
    obtain ⟨hr, hreg⟩ := h.subscribers i r hm
    exact hreg.watcher (hdone r hr hreg.stream)
  have heq : s.onQuit i = s.setLine i { s.streams i with subscribers := [], loop := .exited } := by
    simp [State.onQuit, hnone]
  rw [heq]
  exact sound_setLine h ⟨fun _ => hquit, List.nodup_nil, by simp⟩ (fun _ => hdone) (by simp)

theorem sound_onRead (h : Sound s) {ref : ℕ} {rest : List ℕ} (hr : r < s.arrived)
    (hends : (s.memory.event ref).ends → (s.requests r).watcher = .done) : Sound (s.onRead r ref rest) := by
  have hq := h.requests r hr
  unfold State.onRead
  split_ifs with he
  · refine sound_setRequest h ⟨hq.exited, fun _ => hends he, hq.closed, by simp⟩ ?_
    intro i hm
    have hreg := (h.subscribers i r hm).2
    exact ⟨hreg.stream, by simp, hreg.watcher⟩
  · exact sound_setRequest_same h hr rfl rfl rfl rfl

theorem sound_arrive (h : Sound s) (hquit : (s.streams i).quit = false) (eventId : Bytes) :
    Sound { s.setRequest s.arrived ⟨i, eventId, .adding, .none, false, [], false⟩ with arrived := s.arrived + 1 } := by
  have hrunning : (s.streams i).loop ≠ .exited := by
    intro hx
    have hq := (h.lines i).exited hx
    rw [hquit] at hq
    cases hq
  refine ⟨h.lines, ?_, ?_⟩
  · intro r hr
    by_cases hnew : r = s.arrived
    · subst hnew
      simpa using (⟨fun hx => absurd hx hrunning, by simp, by simp, by simp⟩ :
        (⟨i, eventId, .adding, .none, false, [], false⟩ : Request).Ok (s.streams i).loop)
    · simpa [hnew] using h.requests r (lt_of_le_of_ne (Nat.lt_succ_iff.1 hr) hnew)
  · intro j r hm
    obtain ⟨hr, hreg⟩ := h.subscribers j r hm
    refine ⟨hr.trans (Nat.lt_succ_self _), ?_⟩
    simpa [hr.ne] using hreg

theorem sound_send (h : Sound s) {ref : ℕ} {todo : List (ℕ × ℕ)}
    (hloop : (s.streams i).loop = .sending ((r, ref) :: todo)) :
    Sound ((s.setRequest r { s.requests r with connection := (s.requests r).connection ++ [ref] }).setLine i
      { s.streams i with loop := .sending todo }) := by
  have hmem : r ∈ (s.streams i).subscribers := (h.lines i).todo (r, ref) (by simp [hloop])
  obtain ⟨hr, -⟩ := h.subscribers i r hmem
  have hset : Sound (s.setRequest r { s.requests r with connection := (s.requests r).connection ++ [ref] }) :=
    sound_setRequest_same h hr rfl rfl rfl rfl
  refine sound_setLine hset ⟨by simp, (h.lines i).nodup, ?_⟩ (by simp) (hset.subscribers i)
  intro x hx
  exact (h.lines i).todo x (by simpa [hloop] using Or.inr hx)

theorem sound_beginClose (h : Sound s) (hr : r < s.arrived) (hwatching : (s.requests r).watcher = .watching) :
    Sound (s.setRequest r { s.requests r with watcher := .closing }) := by
  have hq := h.requests r hr
  have hnot : (s.requests r).watcher ≠ .done := by simp [hwatching]
  refine sound_setRequest h ⟨fun hx => absurd (hq.exited hx) hnot, fun hx => absurd (hq.returned hx) hnot,
    fun hx => absurd (hq.closed hx) hnot, ?_⟩ ?_
  · intro hadding
    rw [hq.adding hadding] at hwatching
    cases hwatching
  · intro i hm
    have hreg := (h.subscribers i r hm).2
    exact ⟨hreg.stream, hreg.handler, by simp⟩

theorem sound_create (h : Sound s) (listed : Bool) :
    Sound { s.setLine s.created ⟨[], [], [], .idle, false, listed⟩ with created := s.created + 1 } := by
  have hline : Sound (s.setLine s.created ⟨[], [], [], .idle, false, listed⟩) := by
    refine sound_setLine h ⟨by simp [RunLoop.idle], List.nodup_nil, by simp [RunLoop.idle]⟩ ?_ (by simp)
    simp [RunLoop.idle]
  exact ⟨hline.lines, hline.requests, hline.subscribers⟩

theorem sound_finish (h : Sound s) (hr : r < s.arrived) (hclosed : (s.requests r).closed) :
    Sound (s.setRequest r { s.requests r with handler := .returned, gone := true }) := by
  have hq := h.requests r hr
  have hdone := hq.closed hclosed
  refine sound_setRequest h ⟨hq.exited, fun _ => hdone, hq.closed, by simp⟩ ?_
  intro i hm
  exact absurd hdone (h.subscribers i r hm).2.watcher

theorem sound_step (h : Sound s) (g : Generator) (cfg : Config) {op : Op} (hop : Orderly s op) :
    Sound (step g cfg s op) := by
  cases op with
  | create listed => exact sound_create h listed
  | arrive i eventId => exact guard_inv h fun hguard => sound_arrive h hguard.2.2 eventId
  | disconnect r => exact guard_inv h fun hr => sound_setRequest_same h hr rfl rfl rfl rfl
  | publish i ref now =>
    simp only [step]
    cases hoffer : s.offer g cfg i ref now with
    | none => exact h
    | some s' => exact sound_offer h hoffer
  | beginNotify order ref => exact guard_inv h fun _ => sound_with h _ _
  | notifyNext now giveUp =>
    simp only [step]
    split
    · rename_i i rest ref _
      split_ifs
      · exact sound_with h _ _
      · cases hoffer : s.offer g cfg i ref now with
        | none => exact h
        | some s' => exact sound_with (sound_offer h hoffer) _ _
    · exact h
  | endNotify =>
    simp only [step]
    split
    · exact sound_with h _ _
    · exact h
  | remove i =>
    refine guard_inv h fun _ => ?_
    exact sound_setLine h ⟨fun _ => rfl, (h.lines i).nodup, (h.lines i).todo⟩ h.exited (h.subscribers i)
  | register i r => exact guard_inv h fun hguard => sound_onRegister h cfg hguard.2.1 hguard.1 hguard.2.2.1 hguard.2.2.2
  | deregister i r =>
    refine guard_inv h fun hguard => ?_
    obtain ⟨hidle, hr, hstream, hclosing⟩ := hguard
    refine sound_onDeregister h hstream hidle ?_
    intro hadding
    rw [(h.requests r hr).adding hadding] at hclosing
    cases hclosing
  | take i now =>
    simp only [step]
    split
    · refine guard_inv h fun _ => sound_beginEvent ?_ g cfg i _ now
      exact sound_setLine h ⟨(h.lines i).exited, (h.lines i).nodup, (h.lines i).todo⟩ h.exited (h.subscribers i)
    · exact h
  | exit i => exact guard_inv h fun hguard => sound_onQuit h hguard.2 (hop hguard)
  | send i =>
    simp only [step]
    split
    · rename_i r ref todo hloop
      exact guard_inv h fun _ => sound_send h hloop
    · exact h
  | read r =>
    simp only [step]
    split
    · rename_i ref rest hconn
      exact guard_inv h fun hguard => sound_onRead h hguard.1 (hop hguard ref (by simp [hconn]))
    · exact h
  | finish r => exact guard_inv h fun hguard => sound_finish h hguard.1 hguard.2.2.2
  | beginClose r => exact guard_inv h fun hguard => sound_beginClose h hguard.1 hguard.2.1

/-- **Never wedged.** In runs whose steps are orderly no loop waits to send to a subscriber whose handler has returned,
and no request waits in addSubscriber or close for a loop that has exited; in particular not while Notify holds the
mutex. -/
theorem never_wedged (g : Generator) (cfg : Config) (m : Memory) (ops : List Op)
    (h : Along (step g cfg) Orderly (start m) ops) : Always (step g cfg) (fun s => ¬ Wedged s) (start m) ops :=
  always_of_along (I := Sound) (fun _ hs => not_wedged hs) (fun _ _ hs hop => sound_step hs g cfg hop) (start_sound m) h

def twoEvents : Memory where
  event ref := if ref = 0 then .empty else letterA
  made := 0

def oneSlot : Config := ⟨false, false, 1⟩

/-- a request that is served, closed by its client, and the stream removed after it -/
theorem orderly_end :
    let ops : List Op := [.create true, .arrive 0 [], .register 0 0, .publish 0 1 0, .take 0 0, .send 0, .read 0,
      .disconnect 0, .beginClose 0, .deregister 0 0, .finish 0, .remove 0, .exit 0]
    Along (step counting oneSlot) Orderly (start twoEvents) ops ∧
      Always (step counting oneSlot) (fun s => ¬ Wedged s) (start twoEvents) ops := by
  intro ops
  have h : Along (step counting oneSlot) Orderly (start twoEvents) ops := by decide +kernel
  exact ⟨h, never_wedged counting oneSlot twoEvents ops h⟩

/-- a request that has found its stream when the stream is removed -/
def lateRegistration : List Op := [.create true, .arrive 0 [], .remove 0, .exit 0]

def lateClose : List Op :=
  [.create true, .arrive 0 [], .register 0 0, .remove 0, .exit 0, .finish 0, .beginClose 0]

/-- a subscriber is sent an event without data and comment, and then as many events as its channel holds and two more;
then Notify, and an attempt to remove the stream -/
def abandoned : List Op :=
  [.create true, .arrive 0 [], .register 0 0, .publish 0 0 0, .take 0 0, .send 0, .read 0] ++
    (List.replicate 65 [Op.publish 0 1 0, .take 0 0, .send 0]).flatten ++
    [.beginClose 0, .deregister 0 0, .publish 0 1 0, .beginNotify [0] 1, .notifyNext 0 true, .remove 0]

/-- **Wedged.** After a removal a request waits in addSubscriber, or its watcher in close, for a loop that has exited.
And the loop waits to send to a handler that has returned, the watcher waits in close, and Notify holds the mutex. -/
theorem wedged_runs :
    Stranded (run (step counting oneSlot) (start twoEvents) lateRegistration) 0 ∧
      Stranded (run (step counting oneSlot) (start twoEvents) lateClose) 0 ∧
      Stuck (run (step counting oneSlot) (start twoEvents) abandoned) 0 ∧
      ((run (step counting oneSlot) (start twoEvents) abandoned).requests 0).watcher = .closing ∧
      (run (step counting oneSlot) (start twoEvents) abandoned).notifying = some ([0], 1) ∧
      ((run (step counting oneSlot) (start twoEvents) abandoned).streams 0).quit = false := by
  refine ⟨⟨?_, ?_, .inl ?_⟩, ⟨?_, ?_, .inr ?_⟩, ⟨0, 1, [], ?_, ?_, ?_⟩, ?_, ?_, ?_⟩
  all_goals decide +kernel

end LuluExt.Sse.Loop
