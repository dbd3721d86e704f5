/-
One stream: the run loop, its event log, and what every subscriber is sent.

The loop takes one input after another: a subscriber registers and, with autoReplay, is sent the log from its
Last-Event-ID on; a subscriber deregisters; an event is logged, if it has content, and sent to all subscribers; or the
stream quits. Events are pointers: `Memory` holds what they point to, and logging an event overwrites its ID and
timestamp there. A channel is the list of everything put on it, so that sends complete; where they do not is a matter of
`Loop`.
-/
import LuluExt.Lib.Run
import LuluExt.Transport.Sse.Event

namespace LuluExt.Sse

open Run

/-- the results of `newEventID`, call after call; a UUID without its dashes is never empty -/
structure Generator where
  newEventID : ℕ → Bytes
  increasing : ∀ i j, i < j → newEventID i < newEventID j
  nonempty : ∀ i, newEventID i ≠ []

/-- the events by their addresses, and the number of calls of `newEventID` so far -/
structure Memory where
  event : ℕ → Event
  made : ℕ

/-- an event the loop has processed, as it was when it was sent: a record of the run, not of the code -/
structure Processed where
  ref : ℕ
  id : Bytes
  timestamp : ℕ
  logged : Bool
deriving DecidableEq, Repr

/-- subscribers are numbered as they are made; `connection` is all that was put on their channels -/
structure Stream where
  autoReplay : Bool
  eventLog : List ℕ
  subscribers : List ℕ
  registered : ℕ
  connection : ℕ → List ℕ
  running : Bool
  history : List Processed

def newStream (autoReplay : Bool) : Stream := ⟨autoReplay, [], [], 0, fun _ => [], true, []⟩

/-! ## The event log -/

/-- a new ID and timestamp, in place -/
def Memory.assign (g : Generator) (m : Memory) (ref now : ℕ) : Memory where
  event := Function.update m.event ref { m.event ref with id := g.newEventID m.made, timestamp := now }
  made := m.made + 1

def EventLog.add (g : Generator) (m : Memory) (log : List ℕ) (ref now : ℕ) : Memory × List ℕ :=
  if !(m.event ref).hasContent then (m, log) else (m.assign g ref now, log ++ [ref])

def EventLog.replay (m : Memory) (log : List ℕ) (eventId : Bytes) : List ℕ :=
  log.filter fun ref => (m.event ref).id ≥ eventId

/-! ## The loop -/

inductive Input
  | register (eventId : Bytes)
  | deregister (sub : ℕ)
  | event (ref now : ℕ)
  | quit
deriving DecidableEq, Repr

def put (connection : ℕ → List ℕ) (sub : ℕ) (refs : List ℕ) : ℕ → List ℕ :=
  Function.update connection sub (connection sub ++ refs)

def dispatch (subscribers : List ℕ) (connection : ℕ → List ℕ) (ref : ℕ) : ℕ → List ℕ :=
  subscribers.foldl (fun c sub => put c sub [ref]) connection

/-- none for -1 -/
def getSubIndex (subscribers : List ℕ) (sub : ℕ) : Option ℕ := subscribers.findIdx? (· = sub)

def removeSubscriber (s : Stream) (i : ℕ) : Stream := { s with subscribers := s.subscribers.eraseIdx i }

def removeAllSubscribers (s : Stream) : Stream := { s with subscribers := [] }

/-- `case subscriber := <-stream.register` -/
def Stream.onRegister (m : Memory) (s : Stream) (eventId : Bytes) : Stream :=
  { s with
    subscribers := s.subscribers ++ [s.registered]
    registered := s.registered + 1
    connection :=
      if s.autoReplay then put s.connection s.registered (EventLog.replay m s.eventLog eventId) else s.connection }

/-- `case subscriber := <-stream.deregister` -/
def Stream.onDeregister (s : Stream) (sub : ℕ) : Stream :=
  match getSubIndex s.subscribers sub with
  | some i => removeSubscriber s i
  | none => s

/-- an event is sent to all subscribers, and this is recorded -/
@[simp] def Stream.send (s : Stream) (p : Processed) : Stream :=
  { s with connection := dispatch s.subscribers s.connection p.ref, history := s.history ++ [p] }

/-- `case event := <-stream.event` -/
def Stream.onEvent (g : Generator) (m : Memory) (s : Stream) (ref now : ℕ) : Memory × Stream :=
  let logged := if s.autoReplay then EventLog.add g m s.eventLog ref now else (m, s.eventLog)
  let e := logged.1.event ref
  (logged.1, { s with eventLog := logged.2 }.send ⟨ref, e.id, e.timestamp, s.autoReplay && (m.event ref).hasContent⟩)

/-- one turn of `run`; after quit nothing is taken -/
def turn (g : Generator) (σ : Memory × Stream) (i : Input) : Memory × Stream :=
  if σ.2.running then
    match i with
    | .register eventId => (σ.1, σ.2.onRegister σ.1 eventId)
    | .deregister sub => (σ.1, σ.2.onDeregister sub)
    | .event ref now => σ.2.onEvent g σ.1 ref now
    | .quit => (σ.1, { removeAllSubscribers σ.2 with running := false })
  else σ

/-! ## Channels -/

theorem put_self (c : ℕ → List ℕ) (sub : ℕ) (refs : List ℕ) : put c sub refs sub = c sub ++ refs := by simp [put]

variable {sub : ℕ}

theorem put_of_ne (c : ℕ → List ℕ) {i : ℕ} (h : i ≠ sub) (refs : List ℕ) : put c sub refs i = c i := by
  simp [put, h]

theorem dispatch_eq (subs : List ℕ) (c : ℕ → List ℕ) (ref i : ℕ) :
    dispatch subs c ref i = c i ++ List.replicate (subs.count i) ref := by
  induction subs generalizing c with
  | nil => simp [dispatch]
  | cons sub subs ih =>
    rw [dispatch, List.foldl_cons, ← dispatch, ih]
    by_cases hi : i = sub
    · subst hi
      simp [put_self, List.replicate_succ]
    · rw [put_of_ne c hi, List.count_cons_of_ne (Ne.symm hi)]

theorem mem_dispatch {subs : List ℕ} {c : ℕ → List ℕ} {ref r : ℕ} :
    r ∈ dispatch subs c ref sub ↔ r ∈ c sub ∨ r = ref ∧ sub ∈ subs := by
  simp [dispatch_eq, List.count_eq_zero, and_comm]

theorem onDeregister_eq (s : Stream) (sub : ℕ) :
    s.onDeregister sub = { s with subscribers := s.subscribers.erase sub } := by
  have hidx : (fun x : ℕ => decide (x = sub)) = (fun x => x == sub) := by
    funext x
    simp [BEq.beq]
  rw [List.erase_eq_eraseIdx, List.idxOf?, ← hidx]
  unfold Stream.onDeregister getSubIndex
  split <;> rename_i h <;> simp [h, removeSubscriber]

/-- subscribers are distinct, they were made by this stream, and only theirs are the channels with something on them -/
structure Stream.Wf (s : Stream) : Prop where
  nodup : s.subscribers.Nodup
  made : ∀ sub ∈ s.subscribers, sub < s.registered
  fresh : ∀ sub, s.registered ≤ sub → s.connection sub = []

theorem newStream_wf (autoReplay : Bool) : (newStream autoReplay).Wf :=
  ⟨by simp [newStream], by simp [newStream], by simp [newStream]⟩

variable {s : Stream}

theorem onRegister_wf (m : Memory) (h : s.Wf) (eventId : Bytes) : (s.onRegister m eventId).Wf where
  nodup := by
    refine List.nodup_append.2 ⟨h.nodup, by simp, ?_⟩
    intro a ha b hb
    rw [List.mem_singleton.1 hb]
    exact (h.made a ha).ne
  made := by
    intro sub hsub
    rcases List.mem_append.1 hsub with hm | hm
    · exact (h.made sub hm).trans (Nat.lt_succ_self _)
    · rw [List.mem_singleton.1 hm]
      exact Nat.lt_succ_self _
  fresh := by
    intro sub hsub
    have hle : s.registered < sub := hsub
    have hfresh := h.fresh sub hle.le
    simp only [Stream.onRegister]
    split_ifs
    · rw [put_of_ne _ hle.ne', hfresh]
    · exact hfresh

theorem onDeregister_wf (h : s.Wf) (sub : ℕ) : (s.onDeregister sub).Wf := by
  rw [onDeregister_eq]
  exact ⟨h.nodup.erase sub, fun x hx => h.made x (List.mem_of_mem_erase hx), h.fresh⟩

variable (g : Generator)

theorem onEvent_wf (m : Memory) (h : s.Wf) (ref now : ℕ) : (s.onEvent g m ref now).2.Wf where
  nodup := h.nodup
  made := h.made
  fresh := by
    intro sub hsub
    have hno : sub ∉ s.subscribers := fun hm => absurd (h.made sub hm) (not_lt.2 hsub)
    refine (dispatch_eq s.subscribers s.connection ref sub).trans ?_
    simp [h.fresh sub hsub, List.count_eq_zero.2 hno]

variable {σ : Memory × Stream}

theorem turn_wf (h : σ.2.Wf) (i : Input) : (turn g σ i).2.Wf := by
  unfold turn
  split_ifs
  · cases i with
    | register eventId => exact onRegister_wf σ.1 h eventId
    | deregister sub => exact onDeregister_wf h sub
    | event ref now => exact onEvent_wf g σ.1 h ref now
    | quit => exact ⟨List.nodup_nil, by simp [removeAllSubscribers], h.fresh⟩
  · exact h

/-! ## What a subscriber is sent -/

def sentBy : Input → List ℕ
  | .event ref _ => [ref]
  | _ => []

/-- the events of the inputs until a subscriber deregisters or the stream quits -/
def eventsUntil (sub : ℕ) : List Input → List ℕ
  | [] => []
  | i :: rest => sentBy i ++ if i = .deregister sub ∨ i = .quit then [] else eventsUntil sub rest

/-- **One turn, for one subscriber** that was made: only its own deregistration and quit remove it, and while it is
there every event is put on its channel and nothing else is. -/
theorem turn_spec (hwf : σ.2.Wf) (hrun : σ.2.running) (hmade : sub < σ.2.registered) (i : Input) :
    sub < (turn g σ i).2.registered ∧
      (sub ∈ (turn g σ i).2.subscribers ↔ sub ∈ σ.2.subscribers ∧ i ≠ .deregister sub ∧ i ≠ .quit) ∧
      (turn g σ i).2.connection sub = σ.2.connection sub ++ if sub ∈ σ.2.subscribers then sentBy i else [] := by
  cases i with
  | register eventId =>
    have hne : sub ≠ σ.2.registered := hmade.ne
    simp only [turn, hrun, if_true]
    refine ⟨hmade.trans (Nat.lt_succ_self _), by simp [Stream.onRegister, hne], ?_⟩
    simp only [Stream.onRegister, sentBy, ite_self, List.append_nil]
    split_ifs
    · exact put_of_ne _ hne _
    · rfl
  | deregister d =>
    simp only [turn, hrun, if_true, onDeregister_eq, hwf.nodup.mem_erase_iff]
    refine ⟨hmade, ?_, by simp [sentBy]⟩
    simp only [ne_eq, Input.deregister.injEq]
    tauto
  | event ref now =>
    simp only [turn, hrun]
    refine ⟨hmade, by simp [Stream.onEvent], (dispatch_eq ..).trans ?_⟩
    rw [hwf.nodup.count]
    split_ifs <;> rfl
  | quit =>
    simp only [turn, hrun]
    exact ⟨hmade, by simp [removeAllSubscribers], by simp [removeAllSubscribers, sentBy]⟩

theorem turn_stopped (h : σ.2.running = false) (i : Input) : turn g σ i = σ := by
  simp [turn, h]

theorem running_turn (h : σ.2.running) {i : Input} (hi : i ≠ .quit) : (turn g σ i).2.running := by
  cases i with
  | register eventId => simp [turn, h, Stream.onRegister]
  | deregister d => simp [turn, h, onDeregister_eq]
  | event ref now => simp [turn, h, Stream.onEvent]
  | quit => exact absurd rfl hi

theorem connection_gone (hwf : σ.2.Wf) (hmade : sub < σ.2.registered)
    (hgone : sub ∉ σ.2.subscribers) (ops : List Input) :
    (run (turn g) σ ops).2.connection sub = σ.2.connection sub := by
  induction ops generalizing σ with
  | nil => rfl
  | cons i ops ih =>
    rw [run_cons]
    cases hrun : σ.2.running with
    | false =>
      rw [turn_stopped g hrun]
      exact ih hwf hmade hgone
    | true =>
      obtain ⟨hmade', hmem, hconnection⟩ := turn_spec g hwf hrun hmade i
      rw [ih (turn_wf g hwf i) hmade' fun h => hgone (hmem.1 h).1, hconnection, if_neg hgone, List.append_nil]

theorem connection_present (hwf : σ.2.Wf) (hrun : σ.2.running)
    (hsub : sub ∈ σ.2.subscribers) (ops : List Input) :
    (run (turn g) σ ops).2.connection sub = σ.2.connection sub ++ eventsUntil sub ops := by
  induction ops generalizing σ with
  | nil => simp [eventsUntil]
  | cons i ops ih =>
    obtain ⟨hmade', hmem, hconnection⟩ := turn_spec g hwf hrun (hwf.made sub hsub) i
    have hwf' := turn_wf g hwf i
    rw [if_pos hsub] at hconnection
    rw [run_cons, eventsUntil]
    by_cases hleaves : i = .deregister sub ∨ i = .quit
    · have hgone : sub ∉ (turn g σ i).2.subscribers := fun h => by
        obtain ⟨-, hne, hnq⟩ := hmem.1 h
        rcases hleaves with hl | hl
        · exact hne hl
        · exact hnq hl
      rw [connection_gone g hwf' hmade' hgone, hconnection, if_pos hleaves, List.append_nil]
    · obtain ⟨hne, hnq⟩ := not_or.1 hleaves
      rw [ih hwf' (running_turn g hrun hnq) (hmem.2 ⟨hsub, hne, hnq⟩), hconnection, if_neg hleaves, List.append_assoc]

/-- **A registration**: the replay first, and then every event until the subscriber leaves. -/
theorem connection_registered (hwf : σ.2.Wf) (hrun : σ.2.running)
    (hreplay : σ.2.autoReplay) (eventId : Bytes) (ops : List Input) :
    (run (turn g) σ (.register eventId :: ops)).2.connection σ.2.registered =
      EventLog.replay σ.1 σ.2.eventLog eventId ++ eventsUntil σ.2.registered ops := by
  have hturn : turn g σ (.register eventId) = (σ.1, σ.2.onRegister σ.1 eventId) := by simp [turn, hrun]
  have hfirst : (σ.2.onRegister σ.1 eventId).connection σ.2.registered = EventLog.replay σ.1 σ.2.eventLog eventId := by
    have hempty := hwf.fresh σ.2.registered le_rfl
    simp [Stream.onRegister, hreplay, put_self, hempty]
  rw [run_cons, hturn, ← hfirst]
  exact connection_present g (σ := (σ.1, σ.2.onRegister σ.1 eventId)) (onRegister_wf σ.1 hwf eventId) hrun
    (by simp [Stream.onRegister]) ops

/-! ## The log of a run -/

variable {m : Memory}

theorem onEvent_bare {ref : ℕ} (h : (s.autoReplay && (m.event ref).hasContent) = false) (now : ℕ) :
    s.onEvent g m ref now = (m, s.send ⟨ref, (m.event ref).id, (m.event ref).timestamp, false⟩) := by
  cases hr : s.autoReplay with
  | false => simp [Stream.onEvent, hr]
  | true =>
    rw [hr, Bool.true_and] at h
    simp [Stream.onEvent, EventLog.add, h]

theorem onEvent_logged {ref : ℕ} (h : (s.autoReplay && (m.event ref).hasContent)) (now : ℕ) :
    s.onEvent g m ref now =
      (m.assign g ref now, { s with eventLog := s.eventLog ++ [ref] }.send ⟨ref, g.newEventID m.made, now, true⟩) := by
  obtain ⟨hr, hc⟩ := Bool.and_eq_true_iff.1 h
  simp [Stream.onEvent, hr, EventLog.add, hc, Memory.assign]

/-- nothing is processed: a channel can only get what is replayed -/
structure Quiet (σ τ : Memory × Stream) : Prop where
  memory : τ.1 = σ.1
  autoReplay : τ.2.autoReplay = σ.2.autoReplay
  eventLog : τ.2.eventLog = σ.2.eventLog
  history : τ.2.history = σ.2.history
  connection : ∀ sub, ∀ ref ∈ τ.2.connection sub,
    ref ∈ σ.2.connection sub ∨ σ.2.autoReplay = true ∧ ref ∈ σ.2.eventLog

/-- **What a turn can do**: nothing to the log, or send an event as it is, or log it first. -/
theorem turn_cases (σ : Memory × Stream) (i : Input) :
    Quiet σ (turn g σ i) ∨
    (∃ ref now, i = .event ref now ∧ (σ.2.autoReplay && (σ.1.event ref).hasContent) = false ∧
      turn g σ i = (σ.1, σ.2.send ⟨ref, (σ.1.event ref).id, (σ.1.event ref).timestamp, false⟩)) ∨
    ∃ ref now, i = .event ref now ∧ (σ.2.autoReplay && (σ.1.event ref).hasContent) ∧
      turn g σ i = (σ.1.assign g ref now,
        { σ.2 with eventLog := σ.2.eventLog ++ [ref] }.send ⟨ref, g.newEventID σ.1.made, now, true⟩) := by
  cases hrun : σ.2.running with
  | false =>
    rw [turn_stopped g hrun]
    exact .inl ⟨rfl, rfl, rfl, rfl, fun _ _ h => .inl h⟩
  | true =>
    cases i with
    | register eventId =>
      simp only [turn, hrun, if_true]
      refine .inl ⟨rfl, rfl, rfl, rfl, ?_⟩
      intro sub ref hm
      simp only [Stream.onRegister] at hm
      split_ifs at hm with hreplay
      · by_cases hsub : sub = σ.2.registered
        · subst hsub
          rw [put_self, List.mem_append] at hm
          exact hm.imp_right fun hm => ⟨hreplay, (List.mem_filter.1 hm).1⟩
        · rw [put_of_ne _ hsub] at hm
          exact .inl hm
      · exact .inl hm
    | deregister d =>
      simp only [turn, hrun, onDeregister_eq]
      exact .inl ⟨rfl, rfl, rfl, rfl, fun _ _ h => .inl h⟩
    | event ref now =>
      have hturn : turn g σ (.event ref now) = σ.2.onEvent g σ.1 ref now := by simp [turn, hrun]
      rw [hturn]
      cases hlogged : σ.2.autoReplay && (σ.1.event ref).hasContent with
      | false => exact .inr (.inl ⟨ref, now, rfl, hlogged, onEvent_bare g hlogged now⟩)
      | true => exact .inr (.inr ⟨ref, now, rfl, hlogged, onEvent_logged g hlogged now⟩)
    | quit =>
      simp only [turn, hrun]
      exact .inl ⟨rfl, rfl, rfl, rfl, fun _ _ h => .inl h⟩

/-- what the records say: the log is what was logged, with IDs made before and increasing, and everything on a channel
was processed -/
structure Recorded (g : Generator) (σ : Memory × Stream) : Prop where
  sent : ∀ sub, ∀ ref ∈ σ.2.connection sub, ref ∈ σ.2.history.map Processed.ref
  eventLog : σ.2.eventLog = (σ.2.history.filter Processed.logged).map Processed.ref
  made : ∀ p ∈ σ.2.history, p.logged = true → ∃ j < σ.1.made, p.id = g.newEventID j
  sorted : (σ.2.history.filter Processed.logged).Pairwise fun p q => p.id < q.id

theorem recorded_newStream (m : Memory) (autoReplay : Bool) : Recorded g (m, newStream autoReplay) :=
  ⟨by simp [newStream], rfl, by simp [newStream], by simp [newStream]⟩

theorem Recorded.mono {g : Generator} {m' : Memory} (h : Recorded g (m, s)) (hle : m.made ≤ m'.made) :
    Recorded g (m', s) where
  sent := h.sent
  eventLog := h.eventLog
  made := by
    intro p hp hl
    obtain ⟨j, hj, hid⟩ := h.made p hp hl
    exact ⟨j, hj.trans_le hle, hid⟩
  sorted := h.sorted

theorem forall_mem_send {p : Processed} {P : Processed → Prop} :
    (∀ q ∈ (s.send p).history, P q) ↔ (∀ q ∈ s.history, P q) ∧ P p := by
  simp only [Stream.send, List.mem_append, List.mem_singleton]
  constructor
  · intro h
    exact ⟨fun q hq => h q (.inl hq), h p (.inr rfl)⟩
  · rintro ⟨hold, hnew⟩ q (hq | rfl)
    · exact hold q hq
    · exact hnew

theorem sent_send (h : ∀ sub, ∀ ref ∈ s.connection sub, ref ∈ s.history.map Processed.ref) (p : Processed) :
    ∀ sub, ∀ ref ∈ (s.send p).connection sub, ref ∈ (s.send p).history.map Processed.ref := by
  intro sub ref hm
  rcases mem_dispatch.1 hm with hm | ⟨rfl, -⟩
  · simp only [Stream.send, List.map_append, List.mem_append]
    exact .inl (h sub ref hm)
  · simp

theorem recorded_turn {g : Generator} (h : Recorded g σ) (i : Input) : Recorded g (turn g σ i) := by
  rcases turn_cases g σ i with hq | ⟨ref, now, -, -, heq⟩ | ⟨ref, now, -, -, heq⟩
  · refine ⟨?_, ?_, ?_, ?_⟩
    · intro sub r hm
      rw [hq.history]
      rcases hq.connection sub r hm with hm | ⟨-, hm⟩
      · exact h.sent sub r hm
      · rw [h.eventLog] at hm
        exact List.map_subset _ (List.filter_subset_self _) hm
    · rw [hq.eventLog, hq.history, h.eventLog]
    · rw [hq.history, hq.memory]
      exact h.made
    · rw [hq.history]
      exact h.sorted
  · rw [heq]
    refine ⟨sent_send h.sent _, ?_, forall_mem_send.2 ⟨h.made, by simp⟩, ?_⟩
    · simpa using h.eventLog
    · simpa using h.sorted
  · rw [heq]
    refine ⟨sent_send (s := { σ.2 with eventLog := σ.2.eventLog ++ [ref] }) h.sent _, ?_,
      forall_mem_send.2 ⟨?_, fun _ => ⟨σ.1.made, Nat.lt_succ_self _, rfl⟩⟩, ?_⟩
    · simp [h.eventLog]
    · intro p hp hl
      obtain ⟨j, hj, hid⟩ := h.made p hp hl
      exact ⟨j, hj.trans (Nat.lt_succ_self _), hid⟩
    · simp only [Stream.send, List.filter_append]
      refine List.pairwise_append.2 ⟨h.sorted, by simp, ?_⟩
      intro p hp q hq
      obtain ⟨hmem, hl⟩ := List.mem_filter.1 hp
      obtain ⟨j, hj, hid⟩ := h.made p hmem hl
      simp only [List.filter_cons_of_pos, List.filter_nil, List.mem_singleton] at hq
      rw [hq, hid]
      exact g.increasing j σ.1.made hj

theorem hasContent_assign {ref : ℕ} (h : (m.event ref).hasContent) (now r : ℕ) :
    ((m.assign g ref now).event r).hasContent = (m.event r).hasContent := by
  by_cases hr : r = ref
  · subst hr
    have hid := g.nonempty m.made
    rw [h]
    simp [Memory.assign, Event.hasContent, hid]
  · simp [Memory.assign, hr]

theorem id_eq_nil {e : Event} (h : e.hasContent = false) : e.id = [] := by
  by_contra hne
  simp [Event.hasContent, hne] at h

/-- what a run of one stream with autoReplay leaves of the memory `m` it began with: what has content keeps it and is
what is logged, an ID is only replaced by later ones, and what is not logged has none -/
structure Traced (g : Generator) (m : Memory) (σ : Memory × Stream) : Prop where
  recorded : Recorded g σ
  replay : σ.2.autoReplay = true
  content : ∀ r, (σ.1.event r).hasContent = (m.event r).hasContent
  logged : ∀ p ∈ σ.2.history, p.logged = (m.event p.ref).hasContent
  kept : ∀ p ∈ σ.2.history, p.logged = true → p.id ≤ (σ.1.event p.ref).id
  bare : ∀ p ∈ σ.2.history, p.logged = false → p.id = []

theorem traced_newStream (m : Memory) : Traced g m (m, newStream true) :=
  ⟨recorded_newStream g m true, rfl, fun _ => rfl, by simp [newStream], by simp [newStream], by simp [newStream]⟩

theorem traced_turn {g : Generator} (h : Traced g m σ) (i : Input) : Traced g m (turn g σ i) := by
  have hrec := recorded_turn h.recorded i
  rcases turn_cases g σ i with hq | ⟨ref, now, -, hc, heq⟩ | ⟨ref, now, -, hc, heq⟩
  · refine ⟨hrec, hq.autoReplay.trans h.replay, ?_, ?_, ?_, ?_⟩
    · rw [hq.memory]
      exact h.content
    · rw [hq.history]
      exact h.logged
    · rw [hq.history, hq.memory]
      exact h.kept
    · rw [hq.history]
      exact h.bare
  · rw [h.replay, Bool.true_and] at hc
    rw [heq] at hrec ⊢
    have hlogged : false = (m.event ref).hasContent := by rw [← h.content, hc]
    exact ⟨hrec, h.replay, h.content, forall_mem_send.2 ⟨h.logged, hlogged⟩, forall_mem_send.2 ⟨h.kept, by simp⟩,
      forall_mem_send.2 ⟨h.bare, fun _ => id_eq_nil hc⟩⟩
  · rw [h.replay, Bool.true_and] at hc
    rw [heq] at hrec ⊢
    have hlogged : true = (m.event ref).hasContent := by rw [← h.content, hc]
    refine ⟨hrec, h.replay, ?_, forall_mem_send.2 ⟨h.logged, hlogged⟩, forall_mem_send.2 ⟨?_, by simp [Memory.assign]⟩,
      forall_mem_send.2 ⟨h.bare, by simp⟩⟩
    · intro r
      rw [hasContent_assign g hc, h.content]
    · -- a later ID is above the one it replaces
      intro p hp hl
      by_cases hr : p.ref = ref
      · obtain ⟨j, hj, hid⟩ := h.recorded.made p hp hl
        have hlt := g.increasing j σ.1.made hj
        simpa [Memory.assign, hr, hid] using List.le_of_lt hlt
      · simpa [Memory.assign, hr] using h.kept p hp hl

theorem Traced.eventLog_eq {g : Generator} (h : Traced g m σ) :
    σ.2.eventLog = (σ.2.history.map Processed.ref).filter fun r => (m.event r).hasContent := by
  rw [h.recorded.eventLog, List.filter_map]
  exact congrArg _ (List.filter_congr fun p hp => by simpa using h.logged p hp)

def processed : List Input → List ℕ
  | [] => []
  | i :: rest => sentBy i ++ if i = .quit then [] else processed rest

theorem history_run (hrun : σ.2.running) (ops : List Input) :
    (run (turn g) σ ops).2.history.map Processed.ref = σ.2.history.map Processed.ref ++ processed ops := by
  induction ops generalizing σ with
  | nil => simp [processed]
  | cons i ops ih =>
    have hturn : (turn g σ i).2.history.map Processed.ref = σ.2.history.map Processed.ref ++ sentBy i := by
      cases i with
      | register eventId => simp [turn, hrun, Stream.onRegister, sentBy]
      | deregister sub => simp [turn, hrun, onDeregister_eq, sentBy]
      | event ref now => simp [turn, hrun, Stream.onEvent, sentBy]
      | quit => simp [turn, hrun, removeAllSubscribers, sentBy]
    rw [run_cons, processed]
    by_cases hquit : i = .quit
    · have hstop : (turn g σ i).2.running = false := by simp [turn, hrun, hquit]
      rw [run, List.foldl_fixed' (turn_stopped g hstop), hturn, if_pos hquit, List.append_nil]
    · rw [ih (running_turn g hrun hquit), hturn, if_neg hquit, List.append_assoc]

/-! ## Delivery -/

/-- not the removal of somebody else -/
def stays (sub : ℕ) : Input → Bool
  | .deregister d => d = sub
  | _ => true

/-- without the subscribers, their channels and the records -/
@[simp] def core (σ : Memory × Stream) : Memory × Stream :=
  (σ.1, { σ.2 with subscribers := [], connection := fun _ => [], history := [] })

theorem core_deregister (σ : Memory × Stream) (d : ℕ) : core (turn g σ (.deregister d)) = core σ := by
  unfold turn
  split_ifs
  · simp [onDeregister_eq]
  · rfl

theorem core_turn (σ : Memory × Stream) (i : Input) : core (turn g σ i) = core (turn g (core σ) i) := by
  cases i with
  | deregister d =>
    rw [core_deregister, core_deregister]
    rfl
  | _ =>
    cases hrun : σ.2.running with
    | false => simp [turn, hrun]
    | true => simp [turn, hrun, Stream.onRegister, Stream.onEvent, removeAllSubscribers]

variable {τ : Memory × Stream}

theorem core_filter (sub : ℕ) (h : core σ = core τ) (ops : List Input) :
    core (run (turn g) σ ops) = core (run (turn g) τ (ops.filter (stays sub))) := by
  induction ops generalizing σ τ with
  | nil => exact h
  | cons i ops ih =>
    cases hstays : stays sub i with
    | true =>
      rw [List.filter_cons_of_pos hstays]
      refine ih ?_
      rw [core_turn, h, ← core_turn]
    | false =>
      rw [List.filter_cons_of_neg (by simp [hstays])]
      cases i with
      | deregister d => exact ih ((core_deregister g σ d).trans h)
      | _ => simp [stays] at hstays

theorem eventsUntil_filter (sub : ℕ) (ops : List Input) :
    eventsUntil sub (ops.filter (stays sub)) = eventsUntil sub ops := by
  induction ops with
  | nil => rfl
  | cons i ops ih =>
    cases hstays : stays sub i with
    | true => rw [List.filter_cons_of_pos hstays, eventsUntil, eventsUntil, ih]
    | false =>
      rw [List.filter_cons_of_neg (by simp [hstays])]
      cases i with
      | deregister d =>
        have hne : d ≠ sub := by simpa [stays] using hstays
        simp [eventsUntil, sentBy, hne, ih]
      | _ => simp [stays] at hstays

def streamAfter (g : Generator) (m : Memory) (ops : List Input) : Memory × Stream :=
  run (turn g) (m, newStream true) ops

theorem streamAfter_wf (m : Memory) (ops : List Input) : (streamAfter g m ops).2.Wf :=
  run_inv (I := fun σ : Memory × Stream => σ.2.Wf) (fun _ i h => turn_wf g h i) (newStream_wf true) ops

theorem streamAfter_traced (m : Memory) (ops : List Input) : Traced g m (streamAfter g m ops) :=
  run_inv (I := Traced g m) (fun _ i h => traced_turn h i) (traced_newStream g m) ops

/-- what the subscriber that registers after `pre` is sent by the end of `post` -/
def sentTo (g : Generator) (m : Memory) (pre : List Input) (eventId : Bytes) (post : List Input) : List ℕ :=
  (streamAfter g m (pre ++ .register eventId :: post)).2.connection (streamAfter g m pre).2.registered

theorem sentTo_eq (m : Memory) {pre : List Input} (hrun : (streamAfter g m pre).2.running)
    (eventId : Bytes) (post : List Input) :
    sentTo g m pre eventId post = EventLog.replay (streamAfter g m pre).1 (streamAfter g m pre).2.eventLog eventId ++
      eventsUntil (streamAfter g m pre).2.registered post := by
  have hconn := connection_registered g (streamAfter_wf g m pre) hrun (streamAfter_traced g m pre).replay eventId post
  rw [sentTo, streamAfter, run_append]
  exact hconn

theorem replay_nil (m : Memory) (log : List ℕ) : EventLog.replay m log [] = log := by
  simp [EventLog.replay]

/-- **Delivery.** What is put on the channel of a subscriber with an empty Last-Event-ID is the log at its registration,
which is every event with content processed before it, followed by every event processed until it deregisters or the
stream quits, whatever is removed otherwise. -/
theorem delivery (g : Generator) (m : Memory) (pre post : List Input) (hrun : (streamAfter g m pre).2.running = true) :
    let sub := (streamAfter g m pre).2.registered
    sentTo g m pre [] post = (streamAfter g m pre).2.eventLog ++ eventsUntil sub post ∧
      (streamAfter g m pre).2.eventLog = (processed pre).filter (fun r => (m.event r).hasContent) ∧
      ∀ pre' post', pre'.filter (stays sub) = pre.filter (stays sub) →
        post'.filter (stays sub) = post.filter (stays sub) → sentTo g m pre' [] post' = sentTo g m pre [] post := by
  intro sub
  refine ⟨?_, ?_, ?_⟩
  · rw [sentTo_eq g m hrun, replay_nil]
  · have hhistory := history_run g (σ := (m, newStream true)) rfl pre
    rw [(streamAfter_traced g m pre).eventLog_eq, streamAfter, hhistory]
    rfl
  · intro pre' post' hpre hpost
    have hcore : core (streamAfter g m pre') = core (streamAfter g m pre) := by
      have hleft := core_filter g sub (σ := (m, newStream true)) rfl pre'
      rw [hpre] at hleft
      exact hleft.trans (core_filter g sub rfl pre).symm
    simp only [core, Prod.mk.injEq, Stream.mk.injEq] at hcore
    obtain ⟨hmemory, -, heventLog, -, hregistered, -, hrunning, -⟩ := hcore
    rw [sentTo_eq g m hrun, sentTo_eq g m (hrunning.trans hrun), hmemory, heventLog, hregistered,
      ← eventsUntil_filter _ post', hpost, eventsUntil_filter]

/-! A generator and a memory to run the loop with. -/

theorem lt_append_cons (l t : Bytes) (b : UInt8) : l < l ++ b :: t := by
  induction l with
  | nil => exact List.nil_lt_cons b t
  | cons a l ih => exact List.cons_lt_cons_iff.2 (.inr ⟨rfl, ih⟩)

theorem replicate_lt {i j : ℕ} (h : i < j) : List.replicate i (48 : UInt8) < List.replicate j 48 := by
  obtain ⟨d, rfl⟩ : ∃ d, j = i + (d + 1) := ⟨j - i - 1, by omega⟩
  rw [List.replicate_add]
  exact lt_append_cons _ _ _

def counting : Generator where
  newEventID i := List.replicate (i + 1) 48
  increasing _ _ h := replicate_lt (Nat.succ_lt_succ h)
  nonempty i := by simp

/-- events with data, and from 10 on events with a comment only -/
def samples : Memory where
  event ref := if ref < 10 then { Event.empty with data := [97] } else { Event.empty with comment := [97] }
  made := 0

theorem delivery_sample :
    (streamAfter counting samples [.event 0 0, .register [], .event 10 1]).2.running = true ∧
      sentTo counting samples [.event 0 0, .register [], .event 10 1] []
        [.event 1 2, .deregister 0, .event 2 3, .deregister 1, .event 3 4] = [0, 1, 2] := by
  have h := delivery counting samples [.event 0 0, .register [], .event 10 1]
    [.event 1 2, .deregister 0, .event 2 3, .deregister 1, .event 3 4] (by decide)
  exact ⟨by decide, h.1.trans (by decide)⟩

/-! ## Reconnection -/

/-- the Last-Event-ID of a client that has received the first `k` events: the ID of the last one -/
def lastEventID (history : List Processed) (k : ℕ) : Bytes := ((history.take k).getLast?.map Processed.id).getD []

theorem filter_eq_drop_iff {α : Type} (c : α → Bool) (l : List α) (k : ℕ) :
    l.filter c = l.drop k ↔ (∀ r ∈ l.take k, c r = false) ∧ ∀ r ∈ l.drop k, c r := by
  have hsplit : l.filter c = (l.take k).filter c ++ (l.drop k).filter c := by
    rw [← List.filter_append, List.take_append_drop]
  constructor
  · intro h
    have hdrop : ∀ r ∈ l.drop k, c r := by
      intro r hr
      rw [← h] at hr
      exact (List.mem_filter.1 hr).2
    rw [hsplit, List.filter_eq_self.2 hdrop, List.append_left_eq_self, List.filter_eq_nil_iff] at h
    exact ⟨fun r hr => by simpa using h r hr, hdrop⟩
  · rintro ⟨htake, hdrop⟩
    rw [hsplit, List.filter_eq_self.2 hdrop, List.filter_eq_nil_iff.2 fun r hr => by simp [htake r hr], List.nil_append]

theorem replay_from {g : Generator} (h : Traced g m σ) {a b : List Processed}
    {p : Processed} (hsplit : σ.2.history = a ++ p :: b) (hp : (m.event p.ref).hasContent)
    (hb : ∀ q ∈ b, (m.event q.ref).hasContent) :
    ∃ more, EventLog.replay σ.1 σ.2.eventLog p.id = more ++ p.ref :: b.map Processed.ref := by
  have hlogged : ∀ q ∈ p :: b, q ∈ σ.2.history ∧ q.logged := by
    intro q hq
    have hmem : q ∈ σ.2.history := by simp [hsplit, hq]
    refine ⟨hmem, (h.logged q hmem).trans ?_⟩
    rcases List.mem_cons.1 hq with rfl | hq
    · exact hp
    · exact hb q hq
  have hkeep : ∀ q ∈ p :: b, (σ.1.event q.ref).id ≥ p.id := by
    intro q hq
    obtain ⟨hmem, hl⟩ := hlogged q hq
    have hsorted := h.recorded.sorted
    rw [hsplit, List.filter_append, List.filter_eq_self.2 fun q hq => (hlogged q hq).2] at hsorted
    rcases List.mem_cons.1 hq with rfl | hq
    · exact h.kept q hmem hl
    · have hlt := (List.pairwise_cons.1 (List.pairwise_append.1 hsorted).2.1).1 q hq
      exact List.le_trans (List.le_of_lt hlt) (h.kept q hmem hl)
  have hcontent : ∀ r ∈ (p :: b).map Processed.ref, (m.event r).hasContent := by
    simpa using ⟨hp, hb⟩
  have hids : ∀ r ∈ (p :: b).map Processed.ref, decide ((σ.1.event r).id ≥ p.id) := by
    simpa using hkeep
  rw [EventLog.replay, h.eventLog_eq, hsplit, List.map_append, List.filter_append, List.filter_append,
    List.filter_eq_self.2 hcontent, List.filter_eq_self.2 hids]
  exact ⟨_, rfl⟩

theorem replay_ne_later {g : Generator} (h : Traced g m σ) {a b : List Processed}
    {p : Processed} (hsplit : σ.2.history = a ++ p :: b) (hp : (m.event p.ref).hasContent) :
    EventLog.replay σ.1 σ.2.eventLog p.id ≠ b.map Processed.ref := by
  intro heq
  have hlater : ∀ q ∈ b, (m.event q.ref).hasContent := by
    intro q hq
    have hmem : q.ref ∈ b.map Processed.ref := List.mem_map_of_mem hq
    rw [← heq, h.eventLog_eq] at hmem
    exact (List.mem_filter.1 (List.mem_filter.1 hmem).1).2
  obtain ⟨more, hmore⟩ := replay_from h hsplit hp hlater
  have hlen := congrArg List.length (hmore.symm.trans heq)
  simp at hlen
  omega

/-- **Reconnection.** A client that has received the first `k` events and comes back with the ID of the last of them is
sent exactly the later ones if and only if none of the events it received has content (and so an ID) and all that were
processed after them have. -/
theorem replay_iff (g : Generator) (m : Memory) (pre post : List Input) (k : ℕ)
    (hrun : (streamAfter g m pre).2.running = true) :
    sentTo g m pre (lastEventID (streamAfter g m pre).2.history k) post =
        (processed pre).drop k ++ eventsUntil (streamAfter g m pre).2.registered post ↔
      (∀ r ∈ (processed pre).take k, (m.event r).hasContent = false) ∧
        ∀ r ∈ (processed pre).drop k, (m.event r).hasContent = true := by
  have htraced := streamAfter_traced g m pre
  have hhistory : (streamAfter g m pre).2.history.map Processed.ref = processed pre :=
    history_run g (σ := (m, newStream true)) rfl pre
  set σ := streamAfter g m pre with hσ
  have hlog : σ.2.eventLog = (processed pre).filter fun r => (m.event r).hasContent := by
    rw [htraced.eventLog_eq, hhistory]
  rw [sentTo_eq g m hrun, List.append_cancel_right_eq]
  cases hlast : (σ.2.history.take k).getLast? with
  | none => rw [lastEventID, hlast, Option.map_none, Option.getD_none, replay_nil, hlog, filter_eq_drop_iff]
  | some p =>
    obtain ⟨a, ha⟩ := List.getLast?_eq_some_iff.1 hlast
    have hsplit : σ.2.history = a ++ p :: σ.2.history.drop k := by
      conv_lhs => rw [← List.take_append_drop k σ.2.history, ha]
      simp
    rw [lastEventID, hlast, Option.map_some, Option.getD_some]
    cases hp : (m.event p.ref).hasContent with
    | false =>
      have hmem : p ∈ σ.2.history := by
        rw [hsplit]
        simp
      have hid := htraced.bare p hmem ((htraced.logged p hmem).trans hp)
      rw [hid, replay_nil, hlog, filter_eq_drop_iff]
    | true =>
      constructor
      · intro heq
        rw [← hhistory, ← List.map_drop] at heq
        exact absurd heq (replay_ne_later htraced hsplit hp)
      · rintro ⟨hreceived, -⟩
        have hmem : p.ref ∈ (processed pre).take k := by
          rw [← hhistory, ← List.map_take]
          exact List.mem_map_of_mem (List.mem_of_getLast? hlast)
        simp [hreceived p.ref hmem] at hp

/-- a client that has received a comment is sent the two events after it, and the one that follows -/
theorem replay_sample :
    let pre : List Input := [.event 10 0, .event 0 1, .event 1 2]
    (streamAfter counting samples pre).2.running = true ∧
      sentTo counting samples pre (lastEventID (streamAfter counting samples pre).2.history 1) [.event 2 3] =
        [0, 1, 2] := by
  intro pre
  have h := replay_iff counting samples pre [.event 2 3] 1 (by decide)
  exact ⟨by decide, (h.2 (by decide)).trans (by decide)⟩

/-- **The last event comes twice, and a comment not at all.** A client that has received the first of two events and
comes back with its ID is sent both; one that comes back before a comment is not sent it. -/
theorem replayed_twice :
    let pre : List Input := [.event 0 0, .event 1 1]
    let quiet : List Input := [.event 0 0, .event 10 1]
    sentTo counting samples pre (lastEventID (streamAfter counting samples pre).2.history 1) [] = [0, 1] ∧
      (processed pre).drop 1 = [1] ∧
      sentTo counting samples quiet (lastEventID (streamAfter counting samples quiet).2.history 0) [] = [0] ∧
      processed quiet = [0, 10] := by
  decide

end LuluExt.Sse
